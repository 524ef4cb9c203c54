import TermRules.Number.Basic
import TermRules.Number.Shortest
import TermRules.Text.Blank
import TermRules.Text.Digit

/-!
Numbers written as text. There are two grammars. The wide one reads values that are to become
numbers: digits of every script, and single low lines between digits. The narrow one reads bounds
and counts of terms: ASCII digits, and a fraction of zeros does not stop a text from being a whole
number. Both share the notation of decimals with an optional point and exponent, the infinities
and the NaN.
-/

namespace TermRules

/-- Whole numbers written with more digits than this are refused. -/
def digitLimit : Nat := 4300

namespace Reading

open Text

def splitSign : List Char → Bool × List Char
  | '-' :: rest => (true, rest)
  | '+' :: rest => (false, rest)
  | cs => (false, cs)

/-- The leading ASCII digits as values, and what follows them. -/
def spanDigits (cs : List Char) : List Nat × List Char :=
  (cs.takeWhile isAsciiDigit |>.filterMap asciiDigit?, cs.dropWhile isAsciiDigit)

/-- The exponent that the end of a decimal spells; no exponent is zero. -/
def exponent? : List Char → Option Int
  | [] => some 0
  | e :: rest =>
      if e = 'e' ∨ e = 'E' then
        let (negative, digits) := splitSign rest
        match spanDigits digits with
        | ([], _) | (_, _ :: _) => none
        | (ds, []) => some (if negative then -(ofDigits ds : Int) else ofDigits ds)
      else none

/-- An unsigned decimal: digits before the point or after it, then an exponent. -/
def decimal? (cs : List Char) : Option Decimal := do
  let (whole, afterWhole) := spanDigits cs
  let (fraction, rest) := match afterWhole with
    | '.' :: afterPoint => spanDigits afterPoint
    | _ => ([], afterWhole)
  if whole.isEmpty && fraction.isEmpty then none
  let e ← exponent? rest
  return ⟨ofDigits (whole ++ fraction), e - fraction.length⟩

/-- A signed decimal, infinity or NaN, rounded to a double. -/
def double? (cs : List Char) : Option Double :=
  let (negative, rest) := splitSign cs
  match String.ofList (rest.map Char.toLower) with
  | "inf" | "infinity" => some (.infinite negative)
  | "nan" => some .nan
  | _ => (decimal? rest).map fun d => .ofDecimal negative d.digits d.exponent

/-- Takes the low lines out of a text, each of which must stand between two digits. -/
def joinDigits? (previous : Option Char) : List Char → Option (List Char)
  | [] => if previous = some '_' then none else some []
  | c :: rest =>
      if c = '_' then
        if previous.any isAsciiDigit then joinDigits? (some c) rest else none
      else if previous = some '_' && !isAsciiDigit c then none
      else (joinDigits? (some c) rest).map (c :: ·)

/-- Digits of other scripts as the ASCII digits of the same value. -/
def toAsciiDigit (c : Char) : Char :=
  match digit? c with
  | some d => Nat.digitChar d
  | none => c

/-- The number that a value's text stands for: a sign and digits make a whole number, anything
else is tried as a double. -/
def number? (s : String) : Option Number :=
  let cs := (trim s.toList).map toAsciiDigit
  let (negative, digits) := splitSign cs
  if !digits.isEmpty && digits.all isAsciiDigit then
    if digitLimit < digits.length then none
    else
      let n := ofDigits (digits.filterMap asciiDigit?)
      some (.int (if negative then -(n : Int) else n))
  else
    (joinDigits? none cs).bind fun joined => (double? joined).map .double

/-- Whole digits with single low lines between them, to the end or to a fraction of zeros. -/
def fieldDigits? (cs : List Char) : Option (List Nat) :=
  let whole := cs.takeWhile (· != '.')
  let fraction := cs.dropWhile (· != '.')
  let fractionFits := match fraction with
    | [] => true
    | _ :: zeros => !zeros.isEmpty && zeros.all (· == '0')
  if !fractionFits then none
  else do
    let joined ← joinDigits? none whole
    if joined.isEmpty || !joined.all isAsciiDigit || digitLimit < joined.length then none
    else return joined.filterMap asciiDigit?

/-- The whole number that the text of a field spells. -/
def fieldInt? (s : String) : Option Int :=
  let (negative, rest) := splitSign (trimBy isWhiteSpace s.toList)
  (fieldDigits? rest).map fun ds => if negative then -(ofDigits ds : Int) else ofDigits ds

/-- Whether low lines stand neither at an end nor next to each other. -/
def singleLowLines : List Char → Bool
  | [] => true
  | ['_'] => false
  | '_' :: '_' :: _ => false
  | _ :: rest => singleLowLines rest

/-- The number that the text of a field spells, a whole number if it can be one. -/
def fieldNumber? (s : String) : Option Number :=
  match fieldInt? s with
  | some n => some (.int n)
  | none =>
      let cs := trimBy isWhiteSpace s.toList
      if cs.head? = some '_' || !singleLowLines cs then none
      else (double? (cs.filter (· != '_'))).map .double

end Reading

end TermRules
