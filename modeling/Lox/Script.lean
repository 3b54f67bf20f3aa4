import Lox.Transcript

/-!
Scripts: a whole file run in a session of its own.
-/

namespace Lox.Script

abbrev Contents := Except String ByteArray

def notFound : String := "No such file or directory (os error 2)"

def source (path : String) (contents : Contents) : Except Failure String :=
  match contents with
  | .error reason => .error (.unreadable path reason)
  | .ok bytes =>
    match String.fromUTF8? bytes with
    | some text => .ok text
    | none => .error (.unreadable path notText)

def run (fuel : Nat) (mode : ScanMode) (path : String) (contents : Contents) : Transcript :=
  match source path contents with
  | .ok text => ((Session.start mode).run fuel text).1.transcript
  | .error failure => (⟨[], .failed failure⟩ : Run).transcript

end Lox.Script
