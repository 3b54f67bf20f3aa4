/-!
Reading numbers from their digits. The result is always the nearest double, and of two equally near
ones the even one.
-/

namespace Lox.Number

def digitsValue (digits : List Char) : Nat :=
  digits.foldl (fun value c => 10 * value + (c.toNat - '0'.toNat)) 0

def ofParts (whole fraction : List Char) (exponent : Int) : Float :=
  let shifted := exponent - fraction.length
  Float.ofScientific (digitsValue (whole ++ fraction)) (shifted < 0) shifted.natAbs

def ofNumeral (numeral : List Char) : Float :=
  ofParts (numeral.takeWhile (· ≠ '.')) ((numeral.dropWhile (· ≠ '.')).drop 1) 0

def exponent? : List Char → Option Int
  | [] => some 0
  | mark :: digits =>
    if mark ≠ 'e' ∧ mark ≠ 'E' then none
    else
      let (negative, digits) :=
        match digits with
        | '-' :: digits => (true, digits)
        | '+' :: digits => (false, digits)
        | _ => (false, digits)
      if digits.isEmpty || !digits.all Char.isDigit then none
      else if negative then some (-digitsValue digits) else some (digitsValue digits)

def unsigned? (numeral : List Char) : Option Float :=
  let whole := numeral.takeWhile Char.isDigit
  let (fraction, tail) :=
    match numeral.dropWhile Char.isDigit with
    | '.' :: tail => (tail.takeWhile Char.isDigit, tail.dropWhile Char.isDigit)
    | tail => ([], tail)
  if whole.isEmpty && fraction.isEmpty then none
  else (exponent? tail).map (ofParts whole fraction)

/-- Any written number: a sign, a point and an exponent may occur, or a name of a value that has no
digits. -/
def ofText? (text : String) : Option Float :=
  match text with
  | "inf" => some (1.0 / 0.0)
  | "-inf" => some (-(1.0 / 0.0))
  | "NaN" => some (0.0 / 0.0)
  | _ =>
    match text.toList with
    | '-' :: numeral => (unsigned? numeral).map (- ·)
    | numeral => unsigned? numeral

end Lox.Number
