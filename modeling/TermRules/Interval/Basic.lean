import TermRules.Misuse
import TermRules.Value.Basic

/-!
Intervals and their narrowing. A constraint inherited along a chain is narrowed by every
descendant and never widened: the tighter bound of either side wins, and at a tie an end belongs
to the result only if it belongs to both.

The bounds are numbers when an interval comes from a term, and arbitrary values when it is given
as it stands. `Bound` is what either kind has to offer.
-/

namespace TermRules

class Bound (β : Type) where
  below : β → β → Bool
  same : β → β → Bool
  isInfinite : β → Except Misuse Bool
  shift : β → Int → β
  toValue : β → Value

instance : Bound Number where
  below := Number.below
  same := Number.same
  isInfinite n := match n.isInfinite? with
    | some b => .ok b
    | none => .error .beyondDouble
  shift := Number.shift
  toValue := Value.ofNumber

instance : Bound Value where
  below a b := (a.below? b).getD false
  same := Value.same
  isInfinite v := match v.number? with
    | none => .error .notNumber
    | some n => match n.isInfinite? with
      | some b => .ok b
      | none => .error .beyondDouble
  shift v n := match v.number? with
    | some x => .ofNumber (x.shift n)
    | none => v
  toValue v := v

structure Interval (β : Type) where
  lower : β
  upper : β
  lowerInclusive : Bool := true
  upperInclusive : Bool := true
  deriving DecidableEq, Inhabited

namespace Interval

variable {β : Type} [Bound β]

/-- Puts reversed bounds in order, each with its flag. -/
def normalize (i : Interval β) : Interval β :=
  if Bound.below i.upper i.lower then
    ⟨i.upper, i.lower, i.upperInclusive, i.lowerInclusive⟩
  else i

/-- The tighter lower and the tighter upper end. The result of disjoint intervals is empty, with
its lower bound above its upper. -/
def meet (a b : Interval β) : Interval β :=
  let (lower, lowerInclusive) :=
    if Bound.below b.lower a.lower then (a.lower, a.lowerInclusive)
    else if Bound.below a.lower b.lower then (b.lower, b.lowerInclusive)
    else (a.lower, a.lowerInclusive && b.lowerInclusive)
  let (upper, upperInclusive) :=
    if Bound.below a.upper b.upper then (a.upper, a.upperInclusive)
    else if Bound.below b.upper a.upper then (b.upper, b.upperInclusive)
    else (a.upper, a.upperInclusive && b.upperInclusive)
  ⟨lower, upper, lowerInclusive, upperInclusive⟩

/-- The interval common to both once each is in order. -/
def combine (a b : Interval β) : Interval β :=
  meet a.normalize b.normalize

/-- Takes a further constraint into those met so far. -/
def merge : Option (Interval β) → Option (Interval β) → Option (Interval β)
  | current, none => current
  | none, some incoming => some incoming.normalize
  | some current, some incoming => some (combine current incoming)

def form (i : Interval β) : Value :=
  .list [Bound.toValue i.lower, Bound.toValue i.upper, .bool i.lowerInclusive,
    .bool i.upperInclusive]

end Interval

end TermRules
