import Lox.Session

/-!
Transcripts: what a use of the program writes to its two output streams, and how it exits.
-/

namespace Lox

structure Transcript where
  stdout : String
  stderr : String
  status : ExitStatus
  deriving DecidableEq

def asLines (texts : List String) : String :=
  String.join (texts.map (· ++ "\n"))

def Run.stdout (run : Run) : String := asLines run.output

def Run.stderr (run : Run) : String := asLines (run.failure?.map Failure.text).toList

def Run.transcript (run : Run) : Transcript where
  stdout := run.stdout
  stderr := run.stderr
  status := (run.failure?.map Failure.status).getD .success

def notText : String := "stream did not contain valid UTF-8"

end Lox
