import TermRules.Number.Double

/-!
Numbers of a schema: whole numbers of any size and doubles. Both are compared by the point of
the extended line they stand for, without rounding either side, so a large whole number and the
double next to it stay apart. A NaN has no point: it is below nothing and equal to nothing.
-/

namespace TermRules

inductive Number where
  | int (n : Int)
  | double (d : Double)
  deriving DecidableEq, Inhabited

/-- A point of the rational line with both infinities added. -/
inductive Point where
  | bottom
  | at (q : Rat)
  | top
  deriving DecidableEq

namespace Point

def below : Point → Point → Bool
  | .bottom, .bottom => false
  | .bottom, _ => true
  | .at _, .bottom => false
  | .at p, .at q => decide (p < q)
  | .at _, .top => true
  | .top, _ => false

end Point

def Double.point? : Double → Option Point
  | .nan => none
  | .infinite true => some .bottom
  | .infinite false => some .top
  | .negativeZero => some (.at 0)
  | .finite q => some (.at q)

namespace Number

def point? : Number → Option Point
  | .int n => some (.at n)
  | .double d => d.point?

/-- Strictly less; false as soon as a NaN takes part. -/
def below (a b : Number) : Bool :=
  match a.point?, b.point? with
  | some p, some q => p.below q
  | _, _ => false

/-- Numerically equal; a NaN equals nothing, and the two zeros are one number. -/
def same (a b : Number) : Bool :=
  match a.point?, b.point? with
  | some p, some q => decide (p = q)
  | _, _ => false

def atMost (a b : Number) : Bool :=
  a.below b || a.same b

def isZero (a : Number) : Bool :=
  a.same (.int 0)

/-- The number `n` away. Whole numbers move exactly, doubles round. -/
def shift : Number → Int → Number
  | .int k, n => .int (k + n)
  | .double d, n => .double (d.shift n)

/-- Whole numbers from this magnitude on have no double beside them. -/
def doubleLimit : Nat := Nat.pow 2 1024 - Nat.pow 2 970

/-- Whether a number is an infinity, or `none` for a whole number too large for the question to
be put to a double. -/
def isInfinite? : Number → Option Bool
  | .int n => if n.natAbs < doubleLimit then some false else none
  | .double (.infinite _) => some true
  | .double _ => some false

end Number

end TermRules
