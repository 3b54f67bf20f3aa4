import Lox.Grammar.Program
import Lox.RuntimeError
import Lox.Scan

/-!
Failures of a run, the reports that put them into words, and the exit status each leads to.
-/

namespace Lox

inductive ExitStatus
  | success
  | usageError
  | sourceError
  | noInput
  | runtimeError
  | ioError
  deriving DecidableEq

def ExitStatus.code : ExitStatus → Nat
  | success => 0
  | usageError => 64
  | sourceError => 65
  | noInput => 66
  | runtimeError => 70
  | ioError => 74

inductive Report
  | scan (errors : List (Nat × String))
  | parse (errors : List (Token × String))
  | runtime (token : Token) (message : String)
  | unreadable (path reason : String)

namespace Report

def scanText (line : Nat) (message : String) : String :=
  "[line " ++ toString line ++ "] Error: " ++ message

def parseText (token : Token) (message : String) : String :=
  let place := if token.kind = .eof then "at end" else "at '" ++ token.lexeme ++ "'"
  "[line " ++ toString token.line ++ "] Error " ++ place ++ ": " ++ message

def runtimeText (token : Token) (message : String) : String :=
  message ++ "\n[line " ++ toString token.line ++ "]"

def text : Report → String
  | scan errors => "\n".intercalate (errors.map fun (line, message) => scanText line message)
  | parse errors => "\n".intercalate (errors.map fun (token, message) => parseText token message)
  | runtime token message => runtimeText token message
  | unreadable path reason => "could not read '" ++ path ++ "': " ++ reason

def status : Report → ExitStatus
  | scan _ => .sourceError
  | parse _ => .sourceError
  | runtime _ _ => .runtimeError
  | unreadable _ _ => .noInput

end Report

def ScanError.text (error : ScanError) : String := Report.scanText error.line error.message

def ParseError.text (error : ParseError) : String := Report.parseText error.token error.message

def RuntimeError.text (error : RuntimeError) : String :=
  Report.runtimeText error.token error.message

inductive Failure
  | scan (errors : List ScanError)
  | parse (errors : List ParseError)
  | runtime (error : RuntimeError)
  | unreadable (path reason : String)
  deriving DecidableEq

namespace Failure

def report : Failure → Report
  | scan errors => .scan (errors.map fun error => (error.line, error.message))
  | parse errors => .parse (errors.map fun error => (error.token, error.message))
  | runtime error => .runtime error.token error.message
  | unreadable path reason => .unreadable path reason

def text (failure : Failure) : String := failure.report.text

def status (failure : Failure) : ExitStatus := failure.report.status

end Failure

end Lox
