import Lox.Transcript
import Lox.Unicode

/-!
The prompt: lines read one after the other and run in one session. It ends with the input, at the
word `exit`, or at a line that is not a text; errors of a line do not end it.
-/

namespace Lox.Prompt

def mark : String := "> "

inductive Line
  | exit
  | notText
  | source (text : String)
  deriving DecidableEq

/-- Blank space around a line does not count. -/
def Line.ofBytes (bytes : List UInt8) : Line :=
  match String.fromUTF8? ⟨bytes.toArray⟩ with
  | none => notText
  | some text =>
    let trimmed := Unicode.trim text
    if trimmed = "exit" then exit else source trimmed

def newline : UInt8 := '\n'.toUInt8

/-- Every line keeps the newline that ends it; the last one may have none. -/
def splitLines : List UInt8 → List (List UInt8)
  | [] => []
  | byte :: rest =>
    if byte = newline then [byte] :: splitLines rest
    else
      match splitLines rest with
      | [] => [[byte]]
      | line :: others => (byte :: line) :: others

/-- What is still written where the input ends. -/
def atEnd : Transcript := ⟨"", "", .success⟩

inductive Reaction
  | stop (last : Transcript)
  | goOn (run : Run) (next : Session)

def react (fuel : Nat) (session : Session) (line : List UInt8) : Reaction :=
  match Line.ofBytes line with
  | .exit => .stop atEnd
  | .notText => .stop ⟨"", asLines [notText], .ioError⟩
  | .source text =>
    let (run, next) := session.run fuel text
    .goOn run next

def afterMark (rest : Transcript) : Transcript := { rest with stdout := mark ++ rest.stdout }

def answer (fuel : Nat) (session : Session) : List (List UInt8) → Transcript
  | [] => afterMark atEnd
  | line :: others =>
    match react fuel session line with
    | .stop last => afterMark last
    | .goOn run next =>
      let later := answer fuel next others
      afterMark ⟨run.stdout ++ later.stdout, run.stderr ++ later.stderr, later.status⟩

def run (fuel : Nat) (mode : ScanMode) (stdin : ByteArray) : Transcript :=
  answer fuel (Session.start mode) (splitLines stdin.data.toList)

end Lox.Prompt
