import Lox.Unicode.Alphabetic
import Lox.Unicode.Numeric

/-!
The character classes that names and blank space depend on.
-/

namespace Lox.Unicode

/-- The property Alphabetic: letters of every script, and the marks that belong to them. -/
def isAlphabetic (c : Char) : Bool :=
  if c.toNat < 0x1000 then alphabeticBelow1000.contains c.toNat
  else if c.toNat < 0x10000 then alphabeticBelow10000.contains c.toNat
  else alphabeticSupplementary.contains c.toNat

def isAlphanumeric (c : Char) : Bool :=
  isAlphabetic c || numericRanges.contains c.toNat

def isWhiteSpace (c : Char) : Bool :=
  Ranges.contains
    [(0x9, 0xD), (0x20, 0x20), (0x85, 0x85), (0xA0, 0xA0), (0x1680, 0x1680), (0x2000, 0x200A),
     (0x2028, 0x2029), (0x202F, 0x202F), (0x205F, 0x205F), (0x3000, 0x3000)] c.toNat

def trim (text : String) : String :=
  String.ofList (((text.toList.dropWhile isWhiteSpace).reverse.dropWhile isWhiteSpace).reverse)

end Lox.Unicode
