/-!
Sets of code points given by ascending, disjoint ranges, and membership in them.
-/

namespace Lox.Unicode

abbrev Ranges := List (Nat × Nat)

def Ranges.contains : Ranges → Nat → Bool
  | [], _ => false
  | (first, last) :: others, code =>
    if code < first then false
    else code ≤ last || Ranges.contains others code

end Lox.Unicode
