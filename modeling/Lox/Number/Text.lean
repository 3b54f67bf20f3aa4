import Lox.Number.Shortest

/-!
How numbers are written. All digits stand in front of or behind the point, never with an exponent;
a whole number has no point; zero keeps its sign.
-/

namespace Lox.Number

def Decimal.text (d : Decimal) : String :=
  let digits := Nat.toDigits 10 d.digits
  if 0 ≤ d.exponent then
    String.ofList (digits ++ List.replicate d.exponent.toNat '0')
  else
    let places := (-d.exponent).toNat
    if places < digits.length then
      String.ofList (digits.take (digits.length - places) ++ '.' ::
        digits.drop (digits.length - places))
    else
      String.ofList ('0' :: '.' :: List.replicate (places - digits.length) '0' ++ digits)

def Magnitude.text : Magnitude → String
  | .finite 0 _ => "0"
  | .finite mantissa exponent => (shortest mantissa exponent).text
  | .infinite => "inf"
  | .notANumber => "NaN"

/-- The sign of a number that is none is not written. -/
def text (x : Float) : String :=
  match magnitude x with
  | .notANumber => Magnitude.notANumber.text
  | m => if isNegative x then "-" ++ m.text else m.text

end Lox.Number
