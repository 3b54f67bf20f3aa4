import Lox.Failure
import Lox.Stmt.Exec

/-!
Sessions: sources run one after the other over the same globals. A source that does not scan is not
parsed, and one that does not parse is not executed.
-/

namespace Lox

structure Run where
  events : List Event
  outcome : Outcome Failure
  deriving DecidableEq

namespace Run

def output (run : Run) : List String := run.events.filterMap Event.output?

def logs (run : Run) : List String := run.events.filterMap Event.log?

def failure? (run : Run) : Option Failure :=
  match run.outcome with
  | .failed failure => some failure
  | _ => none

end Run

structure Session where
  mode : ScanMode
  environment : Environment
  deriving DecidableEq

namespace Session

def start (mode : ScanMode) : Session := ⟨mode, .empty⟩

/-- More than any loop can use up. -/
def ampleFuel : Nat := Nat.pow 2 62

def runStatements (fuel : Nat) (session : Session) (statements : List Stmt) : Run × Session :=
  match Lox.execute fuel statements ⟨session.environment, #[]⟩ with
  | (outcome, state) =>
    (⟨statements.map (.statement ·.text) ++ state.events.toList, outcome.map .runtime⟩,
      { session with environment := state.environment })

def after (events : List Event) : Run × Session → Run × Session
  | (run, session) => ({ run with events := events ++ run.events }, session)

def runTokens (fuel : Nat) (session : Session) (tokens : List Token) : Run × Session :=
  let program := parse tokens
  after [.accepted tokens.length, .parsed program.statements.length program.errors.length] <|
    match program.errors with
    | [] => session.runStatements fuel program.statements
    | errors => (⟨[], .failed (.parse errors)⟩, session)

def run (fuel : Nat) (session : Session) (source : String) : Run × Session :=
  let scan := scan session.mode source
  after (scan.lines?.toList.map (.scanned scan.tokens.length ·)) <|
    match scan.errors with
    | [] => session.runTokens fuel scan.tokens
    | errors => (⟨[], .failed (.scan errors)⟩, session)

def runAll (fuel : Nat) (session : Session) : List String → List Run × Session
  | [] => ([], session)
  | source :: others =>
    let (first, next) := session.run fuel source
    let (later, final) := next.runAll fuel others
    (first :: later, final)

end Session

end Lox
