/-!
The parts of a double: its sign, and its magnitude as a whole number times a power of two.
-/

namespace Lox.Number

inductive Magnitude
  /-- The number `mantissa · 2 ^ exponent`; zero has the mantissa zero. -/
  | finite (mantissa : Nat) (exponent : Int)
  | infinite
  | notANumber
  deriving DecidableEq

def isNegative (x : Float) : Bool :=
  Nat.pow 2 63 ≤ x.toBits.toNat

def magnitude (x : Float) : Magnitude :=
  let fraction : Nat := x.toBits.toNat % Nat.pow 2 52
  let biased : Nat := x.toBits.toNat / Nat.pow 2 52 % Nat.pow 2 11
  if biased = 2047 then
    if fraction = 0 then .infinite else .notANumber
  else if biased = 0 then .finite fraction (-1074)
  else .finite (Nat.pow 2 52 + fraction) (biased - 1075)

end Lox.Number
