import Lox.Number.Magnitude

/-!
The decimal with the fewest digits that reads back as a given double. The multiples of each power
of ten form a grid; going from coarse to fine, the first grid with a point that reads back gives
the answer. Of two such points on it the nearer one is taken, and the greater one at a tie.
-/

namespace Lox.Number

structure Decimal where
  digits : Nat
  exponent : Int
  deriving DecidableEq

/-- The factor `numerator / denominator = 2 ^ exponent / 10 ^ place`. -/
structure Scale where
  numerator : Nat
  denominator : Nat

def Scale.between (exponent place : Int) : Scale where
  numerator := Nat.pow 2 exponent.toNat * Nat.pow 10 (-place).toNat
  denominator := Nat.pow 2 (-exponent).toNat * Nat.pow 10 place.toNat

/-- A point of the grid reads back if it lies between the two midpoints to the neighbouring doubles;
the midpoints belong to an even mantissa. Distances are in quarters of the mantissa's unit, because
the gap below a power of two is half as wide. -/
def readsBack (mantissa : Nat) (exponent : Int) (scale : Scale) (point : Nat) : Bool :=
  let below := if mantissa = Nat.pow 2 52 ∧ -1074 < exponent then 1 else 2
  let low := (4 * mantissa - below) * scale.numerator
  let high := (4 * mantissa + 2) * scale.numerator
  let here := 4 * point * scale.denominator
  if mantissa % 2 = 0 then low ≤ here ∧ here ≤ high else low < here ∧ here < high

def pointAt? (mantissa : Nat) (exponent place : Int) : Option Nat :=
  let scale := Scale.between exponent place
  let target := mantissa * scale.numerator
  let lower := target / scale.denominator
  match readsBack mantissa exponent scale lower, readsBack mantissa exponent scale (lower + 1) with
  | true, true =>
    if (lower + 1) * scale.denominator - target ≤ target - lower * scale.denominator then
      some (lower + 1)
    else some lower
  | true, false => some lower
  | false, true => some (lower + 1)
  | false, false => none

def exactDecimal (mantissa : Nat) (exponent : Int) : Decimal :=
  if 0 ≤ exponent then ⟨mantissa * Nat.pow 2 exponent.toNat, 0⟩
  else ⟨mantissa * Nat.pow 5 (-exponent).toNat, exponent⟩

def shortestFrom (mantissa : Nat) (exponent : Int) : Nat → Int → Decimal
  | 0, _ => exactDecimal mantissa exponent
  | grids + 1, place =>
    match pointAt? mantissa exponent place with
    | some digits => ⟨digits, place⟩
    | none => shortestFrom mantissa exponent grids (place - 1)

/-- A power of ten above the number, at most three places above its first digit: the logarithm of
two is close to `30103 / 100000`. -/
def placeAbove (mantissa : Nat) (exponent : Int) : Int :=
  (mantissa.log2 + exponent + 1) * 30103 / 100000 + 2

/-- Seventeen digits always suffice, so twenty grids do. -/
def shortest (mantissa : Nat) (exponent : Int) : Decimal :=
  shortestFrom mantissa exponent 20 (placeAbove mantissa exponent)

end Lox.Number
