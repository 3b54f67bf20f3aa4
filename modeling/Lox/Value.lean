import Lox.Number.Text

/-!
Values, both those that expressions denote and those that literals write: truth, equality, text.
-/

namespace Lox

inductive Value
  | bool (b : Bool)
  | number (x : Float)
  | string (text : String)
  | nil
  deriving DecidableEq

namespace Value

/-- False, nil, both zeros and the empty string count as false; all else, a NaN too, as true. -/
def isTruthy : Value → Bool
  | bool b => b
  | number x => x != 0
  | string text => text ≠ ""
  | nil => false

/-- The equality of scripts: values of different kinds differ, and numbers compare as numbers, so a
NaN differs from itself and the two zeros are equal. -/
def equal : Value → Value → Bool
  | bool a, bool b => a = b
  | number x, number y => x == y
  | string s, string t => s = t
  | nil, nil => true
  | _, _ => false

def text : Value → String
  | bool true => "true"
  | bool false => "false"
  | number x => Number.text x
  | string text => text
  | nil => "nil"

end Value

end Lox
