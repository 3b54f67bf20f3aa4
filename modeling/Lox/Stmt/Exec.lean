import Lox.Event
import Lox.Expr.Eval
import Lox.Stmt

/-!
Execution of statements. It ends at the first fault, and keeps what was bound and printed before; a
block is left on every path. Each loop may start its body as often as the fuel says, so execution
always ends, and a loop that would go on for longer is out of fuel.
-/

namespace Lox

inductive Outcome (ε : Type)
  | finished
  | failed (error : ε)
  | outOfFuel
  deriving DecidableEq

def Outcome.map {ε δ : Type} (f : ε → δ) : Outcome ε → Outcome δ
  | finished => finished
  | failed error => failed (f error)
  | outOfFuel => outOfFuel

theorem Outcome.map_map {ε δ γ : Type} (g : δ → γ) (f : ε → δ) (outcome : Outcome ε) :
    (outcome.map f).map g = outcome.map (g ∘ f) := by
  cases outcome <;> rfl

theorem Outcome.map_id {ε : Type} (outcome : Outcome ε) : outcome.map id = outcome := by
  cases outcome <;> rfl

structure State where
  environment : Environment
  events : Array Event
  deriving DecidableEq

namespace State

def emit (state : State) (event : Event) : State :=
  { state with events := state.events.push event }

def define (state : State) (name : Token) (value : Value) : State :=
  let logged := state.emit (.defined name.lexeme value)
  { logged with environment := logged.environment.define name.lexeme value }

def enter (state : State) : State :=
  let inside := { state with environment := state.environment.push }
  inside.emit (.entered inside.environment.depth)

def leave (state : State) : State :=
  let outside := { state with environment := state.environment.pop }
  outside.emit (.left outside.environment.depth)

@[inline] def evaluate (state : State) (e : Expr)
    (next : Value → State → Outcome RuntimeError × State) : Outcome RuntimeError × State :=
  match e.eval state.environment with
  | (.ok value, env) => next value { state with environment := env }
  | (.error error, env) => (.failed error, { state with environment := env })

def loop (condition : Expr) (body : State → Outcome RuntimeError × State) :
    Nat → State → Outcome RuntimeError × State
  | 0, state => (.outOfFuel, state)
  | fuel + 1, state =>
    state.evaluate condition fun value state =>
      if value.isTruthy then
        match body state with
        | (.finished, state) => loop condition body fuel state
        | stopped => stopped
      else (.finished, state)

end State

namespace Stmt

mutual

def exec (fuel : Nat) : Stmt → State → Outcome RuntimeError × State
  | expression e, state => state.evaluate e fun _ state => (.finished, state)
  | print e, state =>
    state.evaluate e fun value state => (.finished, state.emit (.printed value.text))
  | varDecl name none, state => (.finished, state.define name .nil)
  | varDecl name (some initial), state =>
    state.evaluate initial fun value state => (.finished, state.define name value)
  | block body, state =>
    match execAll fuel body state.enter with
    | (outcome, state) => (outcome, state.leave)
  | ifThen condition yes, state =>
    state.evaluate condition fun value state =>
      if value.isTruthy then yes.exec fuel state else (.finished, state)
  | ifElse condition yes no, state =>
    state.evaluate condition fun value state =>
      if value.isTruthy then yes.exec fuel state else no.exec fuel state
  | whileLoop condition body, state =>
    state.loop condition (fun state => body.exec fuel state) fuel

def execAll (fuel : Nat) : List Stmt → State → Outcome RuntimeError × State
  | [], state => (.finished, state)
  | statement :: others, state =>
    match statement.exec fuel state with
    | (.finished, state) => execAll fuel others state
    | stopped => stopped

end

theorem execAll_append (fuel : Nat) (first second : List Stmt) (state : State) :
    execAll fuel (first ++ second) state =
      match execAll fuel first state with
      | (.finished, state) => execAll fuel second state
      | stopped => stopped := by
  induction first generalizing state with
  | nil => rfl
  | cons statement others ih =>
    rw [List.cons_append, execAll, execAll]
    rcases statement.exec fuel state with ⟨_ | error | _, next⟩
    · exact ih next
    · rfl
    · rfl

end Stmt

def execute (fuel : Nat) (statements : List Stmt) (state : State) :
    Outcome RuntimeError × State :=
  Stmt.execAll fuel statements (state.emit (.interpreting statements.length))

end Lox
