/-!
Sets of characters as ascending lists of code point ranges. A lookup stops at the first range
that ends at or beyond the character.
-/

namespace TermRules.Text

abbrev Ranges := List (Nat × Nat)

def Ranges.contains : Ranges → Nat → Bool
  | [], _ => false
  | (first, last) :: rest, c =>
      if c < first then false
      else if c ≤ last then true
      else Ranges.contains rest c

end TermRules.Text
