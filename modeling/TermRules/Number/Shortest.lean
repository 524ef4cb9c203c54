import TermRules.Number.Double

/-!
The text of a double: the fewest decimal digits that read back as the same double and, of
those, the digits nearest to it. Digits are found on the decimal grids of 1, 2, … 17 places: a
grid that meets the interval of reals rounding to the double meets it in one of the two grid
neighbours of the double itself, so only these two are tried.
-/

namespace TermRules

/-- A decimal `digits * 10 ^ exponent`. -/
structure Decimal where
  digits : Nat
  exponent : Int
  deriving DecidableEq, Inhabited

namespace Decimal

def value (d : Decimal) : Rat :=
  if 0 ≤ d.exponent then ((d.digits * Nat.pow 10 d.exponent.toNat : Nat) : Rat)
  else mkRat d.digits (Nat.pow 10 (-d.exponent).toNat)

/-- Moves trailing zeros of the digits into the exponent, at most `fuel` of them. -/
def stripUpTo : Nat → Decimal → Decimal
  | 0, d => d
  | fuel + 1, d =>
      if d.digits % 10 = 0 then stripUpTo fuel ⟨d.digits / 10, d.exponent + 1⟩ else d

/-- The same number without trailing zeros; zero is `0 * 10 ^ 0`. -/
def strip (d : Decimal) : Decimal :=
  if d.digits = 0 then ⟨0, 0⟩
  else stripUpTo (Nat.toDigits 10 d.digits).length d

end Decimal

/-- The reals that round to a positive double, and whether the ends belong to them. -/
structure RoundingInterval where
  low : Rat
  high : Rat
  closed : Bool

namespace RoundingInterval

/-- Halfway to the neighbours; the lower neighbour is nearer at a power of two. The ends
belong when the significand is even. -/
def around (v : Rat) : RoundingInterval :=
  let n := v.num.natAbs
  let e := gridExponent n v.den
  let m := gridSteps n v.den e
  let half := dyadic 1 (e - 1)
  let below := if m = Nat.pow 2 52 ∧ -1074 < e then dyadic 1 (e - 2) else half
  ⟨v - below, v + half, m % 2 = 0⟩

def contains (i : RoundingInterval) (q : Rat) : Bool :=
  decide (i.low < q ∧ q < i.high) || (i.closed && (decide (q = i.low) || decide (q = i.high)))

end RoundingInterval

/-- The largest `k` with `10 ^ k ≤ n / d`, for positive `n` and `d`. -/
def decimalMagnitude (n d : Nat) : Int :=
  let k : Int := ((Nat.toDigits 10 n).length : Int) - ((Nat.toDigits 10 d).length : Int)
  let below := if 0 ≤ k then n < d * Nat.pow 10 k.toNat else n * Nat.pow 10 (-k).toNat < d
  if below then k - 1 else k

namespace Double

/-- A grid neighbour of `v` with `places` digits that rounds to `v`: the nearer one of two, and
the even one at a tie. -/
def onGrid? (v : Rat) (interval : RoundingInterval) (places : Nat) : Option Decimal :=
  let p := decimalMagnitude v.num.natAbs v.den - (places : Int) + 1
  let scaled :=
    if 0 ≤ p then v / (Nat.pow 10 p.toNat : Rat) else v * (Nat.pow 10 (-p).toNat : Rat)
  let a := scaled.floor.toNat
  let below : Decimal := ⟨a, p⟩
  let above : Decimal := ⟨a + 1, p⟩
  match interval.contains below.value, interval.contains above.value with
  | true, true =>
      let gap := scaled - (a : Rat)
      if gap < (1 : Rat) / 2 then some below
      else if (1 : Rat) / 2 < gap then some above
      else if a % 2 = 0 then some below else some above
  | true, false => some below
  | false, true => some above
  | false, false => none

/-- The shortest decimal that reads back as the positive double `v`. -/
def shortest (v : Rat) : Decimal :=
  let interval := RoundingInterval.around v
  let found := (List.range 17).findSome? fun k => onGrid? v interval (k + 1)
  (found.getD ⟨0, 0⟩).strip

/-- How doubles are written: positional notation while the leading digit stands between
`10 ^ -4` and `10 ^ 15`, otherwise an exponent with a sign and two digits or more; a whole
number keeps one zero after the point. -/
def positionalText (d : Decimal) : String :=
  let ds := Nat.toDigits 10 d.digits
  let point : Int := ds.length + d.exponent
  if -4 < point ∧ point ≤ 16 then
    if point ≤ 0 then
      "0." ++ String.ofList (List.replicate (-point).toNat '0' ++ ds)
    else if (ds.length : Int) ≤ point then
      String.ofList (ds ++ List.replicate (point.toNat - ds.length) '0') ++ ".0"
    else
      String.ofList (ds.take point.toNat) ++ "." ++ String.ofList (ds.drop point.toNat)
  else
    let e := point - 1
    let width := Nat.toDigits 10 e.natAbs
    let exponent := if width.length < 2 then '0' :: width else width
    let fraction := match ds.drop 1 with
      | [] => []
      | rest => '.' :: rest
    String.ofList (ds.take 1 ++ fraction ++ ['e', if e < 0 then '-' else '+'] ++ exponent)

def text : Double → String
  | .nan => "nan"
  | .infinite negative => if negative then "-inf" else "inf"
  | .negativeZero => "-0.0"
  | .finite q =>
      if q = 0 then "0.0"
      else if q < 0 then "-" ++ positionalText (shortest (-q))
      else positionalText (shortest q)

end Double

end TermRules
