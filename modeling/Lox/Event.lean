import Lox.Value

/-!
Events: what a run lets others see, in order. A printed text is output, every other event a log
message.
-/

namespace Lox

inductive Event
  | scanned (tokens lines : Nat)
  | accepted (tokens : Nat)
  | parsed (statements errors : Nat)
  | statement (text : String)
  | interpreting (statements : Nat)
  | defined (name : String) (value : Value)
  | entered (depth : Nat)
  | left (depth : Nat)
  | printed (text : String)
  deriving DecidableEq

namespace Event

def output? : Event → Option String
  | printed text => some text
  | _ => none

def log? : Event → Option String
  | scanned tokens lines =>
    some ("TRACE scanned " ++ toString tokens ++ " tokens over " ++ toString lines ++ " lines")
  | accepted tokens => some ("DEBUG scanned " ++ toString tokens ++ " tokens")
  | parsed statements errors =>
    some ("DEBUG parsed " ++ toString statements ++ " statements with " ++ toString errors ++
      " errors")
  | statement text => some ("TRACE " ++ text)
  | interpreting statements =>
    some ("DEBUG interpreting " ++ toString statements ++ " statements")
  | defined name value => some ("TRACE define " ++ name ++ " = " ++ value.text)
  | entered depth => some ("TRACE entered scope, depth " ++ toString depth)
  | left depth => some ("TRACE left scope, depth " ++ toString depth)
  | printed _ => none

end Event

end Lox
