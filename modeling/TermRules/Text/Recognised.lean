import TermRules.Text.Blank

/-!
Texts of a recognised form: hexadecimal numerals and e-mail addresses. A line feed at the very end
of a text is overlooked.
-/

namespace TermRules.Text

def withoutLineEnd (cs : List Char) : List Char :=
  if cs.getLast? = some '\n' then cs.dropLast else cs

def isHexDigit (c : Char) : Bool :=
  ('0' ≤ c && c ≤ '9') || ('a' ≤ c && c ≤ 'f') || ('A' ≤ c && c ≤ 'F')

/-- One or more hexadecimal digits. -/
def isHexadecimal (s : String) : Bool :=
  let cs := withoutLineEnd s.toList
  !cs.isEmpty && cs.all isHexDigit

/-- Whether a point stands inside, with characters on both sides. -/
def hasInnerPoint (cs : List Char) : Bool :=
  (cs.drop 1).dropLast.contains '.'

/-- No blanks, one at-sign with something before it, and a point inside the part behind it. -/
def isEmail (s : String) : Bool :=
  let cs := withoutLineEnd s.toList
  let mailbox := cs.takeWhile (· != '@')
  let domain := (cs.dropWhile (· != '@')).drop 1
  !cs.any isBlank && !mailbox.isEmpty && !domain.contains '@' && hasInnerPoint domain

end TermRules.Text
