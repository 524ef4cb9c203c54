import TermRules.Text.Ranges

/-!
White space. Text is trimmed of separators in the wide sense, the four information separators
U+001C to U+001F included; field values that hold numbers are trimmed of the Unicode property
White_Space only, which leaves these four out.
-/

namespace TermRules.Text

def blankRanges : Ranges :=
  [(0x9, 0xD), (0x1C, 0x20), (0x85, 0x85), (0xA0, 0xA0), (0x1680, 0x1680), (0x2000, 0x200A),
   (0x2028, 0x2029), (0x202F, 0x202F), (0x205F, 0x205F), (0x3000, 0x3000)]

def isBlank (c : Char) : Bool :=
  blankRanges.contains c.toNat

/-- The Unicode property White_Space. -/
def isWhiteSpace (c : Char) : Bool :=
  isBlank c && !(0x1C ≤ c.toNat && c.toNat ≤ 0x1F)

/-- The characters left after dropping those that satisfy `p` at both ends. -/
def trimBy (p : Char → Bool) (cs : List Char) : List Char :=
  ((cs.dropWhile p).reverse.dropWhile p).reverse

def trim (cs : List Char) : List Char :=
  trimBy isBlank cs

end TermRules.Text
