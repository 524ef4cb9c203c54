/-!
Doubles as the numbers they stand for. A finite double carries its exact rational value, so
comparing and adding doubles is rational arithmetic followed by one rounding; only the sign of
a zero needs a constructor of its own.

Nothing here restricts a finite value to the 53-bit grid. `Double.round` is what puts a value
on it, and every reader and every operation below ends in `Double.round`.
-/

namespace TermRules

inductive Double where
  | nan
  | infinite (negative : Bool)
  | negativeZero
  | finite (value : Rat)
  deriving DecidableEq, Inhabited

/-- The whole number nearest to `n / d`; a half goes to the even neighbour. -/
def nearestEven (n d : Nat) : Nat :=
  let q := n / d
  let r := n % d
  if 2 * r < d then q
  else if d < 2 * r then q + 1
  else q + q % 2

/-- The largest `k` with `2 ^ k ≤ n / d`, for positive `n` and `d`. -/
def binaryMagnitude (n d : Nat) : Int :=
  let k : Int := (n.log2 : Int) - (d.log2 : Int)
  let below := if 0 ≤ k then n < d * Nat.pow 2 k.toNat else n * Nat.pow 2 (-k).toNat < d
  if below then k - 1 else k

/-- The exponent of the spacing of doubles around `n / d`: 53 significant bits, and no finer
than `2 ^ -1074`. -/
def gridExponent (n d : Nat) : Int :=
  max (binaryMagnitude n d - 52) (-1074)

/-- The number of grid steps nearest to `n / d` when the step is `2 ^ e`. -/
def gridSteps (n d : Nat) (e : Int) : Nat :=
  if 0 ≤ e then nearestEven n (d * Nat.pow 2 e.toNat)
  else nearestEven (n * Nat.pow 2 (-e).toNat) d

/-- `m * 2 ^ e`. -/
def dyadic (m : Nat) (e : Int) : Rat :=
  if 0 ≤ e then ((m * Nat.pow 2 e.toNat : Nat) : Rat) else mkRat m (Nat.pow 2 (-e).toNat)

namespace Double

/-- The double nearest to `q`, ties to the even neighbour; magnitudes from the halfway point
above the largest finite double become infinite. -/
def round (q : Rat) : Double :=
  if q = 0 then .finite 0
  else
    let negative := decide (q < 0)
    let n := q.num.natAbs
    let e := gridExponent n q.den
    let m := gridSteps n q.den e
    if 971 < e ∨ (e = 971 ∧ Nat.pow 2 53 ≤ m) then .infinite negative
    else if m = 0 then (if negative then .negativeZero else .finite 0)
    else .finite (if negative then -dyadic m e else dyadic m e)

/-- The double that a decimal `± digits * 10 ^ exponent` reads as. Exponents beyond the range of
doubles are decided from the number of digits, so a huge exponent costs nothing. -/
def ofDecimal (negative : Bool) (digits : Nat) (exponent : Int) : Double :=
  if digits = 0 then (if negative then .negativeZero else .finite 0)
  else
    let size : Int := (Nat.toDigits 10 digits).length + exponent
    if 320 < size then .infinite negative
    else if size < -340 then (if negative then .negativeZero else .finite 0)
    else
      let magnitude : Rat :=
        if 0 ≤ exponent then ((digits * Nat.pow 10 exponent.toNat : Nat) : Rat)
        else mkRat digits (Nat.pow 10 (-exponent).toNat)
      round (if negative then -magnitude else magnitude)

/-- The whole number that a finite double equals, when it equals one. -/
def toInt? : Double → Option Int
  | .finite q => if q.den = 1 then some q.num else none
  | .negativeZero => some 0
  | .nan | .infinite _ => none

/-- The double `n` away, rounded. -/
def shift (d : Double) (n : Int) : Double :=
  match d with
  | .finite q => round (q + n)
  | .negativeZero => round n
  | .nan => .nan
  | .infinite negative => .infinite negative

end Double

end TermRules
