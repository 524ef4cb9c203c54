import TermRules.Number.Reading

/-!
Decimal places. A number counts the places of its shortest decimal text after that decimal has
been rounded to 28 significant digits and stripped of trailing zeros. A text counts as a number
when it spells a decimal; anything else has no places.
-/

namespace TermRules

namespace Decimal

/-- Significant digits kept. -/
def precision : Nat := 28

/-- The finest exponent that a rounded decimal has. -/
def finest : Int := -1000026

/-- The largest exponent of a leading digit. -/
def largest : Int := 999999

/-- The same decimal with at most `precision` digits, a half going to the even neighbour. -/
def rounded (d : Decimal) : Decimal :=
  let size := (Nat.toDigits 10 d.digits).length
  let drop : Int := max (size - precision) (finest - d.exponent)
  if drop ≤ 0 then d
  else if (size : Int) + 1 < drop then ⟨0, 0⟩
  else ⟨nearestEven d.digits (Nat.pow 10 drop.toNat), d.exponent + drop⟩

/-- Places after the point, or `none` when the decimal lies beyond the largest exponent. -/
def places? (d : Decimal) : Option Nat :=
  if d.digits = 0 then some 0
  else if largest < (Nat.toDigits 10 d.digits).length - 1 + d.exponent then none
  else some (-(d.rounded.strip.exponent)).toNat

end Decimal

namespace Double

def places? : Double → Option Nat
  | .finite q =>
      (if q = 0 then ⟨0, 0⟩ else shortest (if q < 0 then -q else q) : Decimal).places?
  | .nan | .infinite _ | .negativeZero => some 0

end Double

def Number.places? : Number → Option Nat
  | .int n => Decimal.places? ⟨n.natAbs, 0⟩
  | .double d => d.places?

namespace Reading

/-- Exponents that a decimal text may have. -/
def exponentBound : Nat := 999999999999999999

/-- The places of the decimal that a text spells; low lines are skipped wherever they stand. -/
def textPlaces? (s : String) : Option Nat :=
  let cs := ((Text.trim s.toList).filter (· != '_')).map toAsciiDigit
  match decimal? (splitSign cs).2 with
  | none => some 0
  | some d => if exponentBound < d.exponent.natAbs then some 0 else d.places?

end Reading

end TermRules
