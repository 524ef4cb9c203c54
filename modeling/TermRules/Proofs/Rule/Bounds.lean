import TermRules.Proofs.Interval.Merging
import TermRules.Proofs.Success
import TermRules.Rule.Check
import TermRules.Rule.Rendering

/-!
What a bound accepts: the values with a quantity, their number or how many members they have, that
stands in its relation to the limit. The names of the bounds of an interval are lawful if they stand
for these relations, all on one quantity.
-/

namespace TermRules

theorem demand_eq_ok_iff {accepted : Bool} {reason : Reason} {path : String} {v : Value} :
    demand accepted reason path v = .ok () ↔ accepted = true := by
  cases accepted <;> simp [demand]

namespace Value

variable {v : Value} {x : Number}

@[simp]
theorem number?_ofNumber (x : Number) : (ofNumber x).number? = some x := by
  cases x <;> rfl

theorem isNull_of_number? (h : v.number? = some x) : v.isNull = false := by
  match v with
  | .null => simp [number?, Scalar.number?] at h
  | .text _ | .list _ | .mapping _ | .bool _ | .int _ | .double _ => rfl

@[simp]
theorem isNull_ofNumber (x : Number) : (ofNumber x).isNull = false :=
  isNull_of_number? (number?_ofNumber x)

theorem below?_ofNumber (h : v.number? = some x) (y : Number) :
    v.below? (.ofNumber y) = some (x.below y) := by
  match v with
  | .null | .text _ | .list _ | .mapping _ => simp [number?, Scalar.number?] at h
  | .bool b | .int n | .double d =>
      cases y <;> simp_all [number?, Scalar.number?, below?, ofNumber]

private theorem ofNumber_below? (h : v.number? = some x) (y : Number) :
    (ofNumber y).below? v = some (y.below x) := by
  match v with
  | .null | .text _ | .list _ | .mapping _ => simp [number?, Scalar.number?] at h
  | .bool b | .int n | .double d =>
      cases y <;> simp_all [number?, Scalar.number?, below?, ofNumber]

private theorem same_ofNumber (h : v.number? = some x) (y : Number) :
    v.same (.ofNumber y) = x.same y := by
  match v with
  | .null | .text _ | .list _ | .mapping _ => simp [number?, Scalar.number?] at h
  | .bool b | .int n | .double d =>
      cases y <;> simp_all [number?, Scalar.number?, same, Scalar.same, ofNumber]

end Value

@[simp]
theorem Kind.admits_ofNumber (x : Number) : Kind.number.admits (.ofNumber x) = true := by
  cases x <;> rfl

namespace Relation

/-- Whether a number stands in the relation to a limit. -/
def accepts (r : Relation) (x limit : Number) : Bool :=
  match r with
  | .exactly => x.same limit
  | .atLeast => !x.below limit
  | .atMost => !limit.below x
  | .above => !x.below limit && !x.same limit
  | .below => !limit.below x && !x.same limit

theorem holds_ofNumber (r : Relation) {v : Value} {x : Number} (h : v.number? = some x)
    (limit : Number) : r.holds v (.ofNumber limit) = .ok (r.accepts x limit) := by
  have hbelow := Value.below?_ofNumber h limit
  have habove := Value.ofNumber_below? h limit
  have hsame := Value.same_ofNumber h limit
  cases r <;> simp only [holds, isBelow, accepts, hbelow, habove, hsame] <;> rfl

/-- The relation as one of points. -/
def Between : Relation → Point → Point → Prop
  | .exactly, p, q => p = q
  | .atLeast, p, q => q ≤ p
  | .atMost, p, q => p ≤ q
  | .above, p, q => q < p
  | .below, p, q => p < q

theorem accepts_iff (r : Relation) {x y : Number} {p q : Point} (hx : x.point? = some p)
    (hy : y.point? = some q) : r.accepts x y = true ↔ r.Between p q := by
  have hxy : x.below y = decide (p < q) := by
    rw [Bool.eq_iff_iff, Number.below_iff_lt hx hy, decide_eq_true_eq]
  have hyx : y.below x = decide (q < p) := by
    rw [Bool.eq_iff_iff, Number.below_iff_lt hy hx, decide_eq_true_eq]
  have hsame : x.same y = decide (p = q) := by
    rw [Bool.eq_iff_iff, Number.same_iff_eq hx hy, decide_eq_true_eq]
  cases r with
  | exactly => simp [accepts, Between, hsame]
  | atLeast => simp [accepts, Between, hxy]
  | atMost => simp [accepts, Between, hyx]
  | above =>
      simp only [accepts, Between, hxy, hsame, Bool.and_eq_true, Bool.not_eq_true',
        decide_eq_false_iff_not, not_lt]
      rw [lt_iff_le_and_ne, ne_comm]
  | below =>
      simp only [accepts, Between, hyx, hsame, Bool.and_eq_true, Bool.not_eq_true',
        decide_eq_false_iff_not, not_lt]
      rw [lt_iff_le_and_ne]

end Relation

namespace DirectiveName

/-- How a quantity has to stand to the limit, if the directive is a bound. -/
def relation? : DirectiveName → Option Relation
  | .exactLength | .exactSize | .exact => some .exactly
  | .minLength | .minSize | .min => some .atLeast
  | .maxLength | .maxSize | .max => some .atMost
  | .greater => some .above
  | .less => some .below
  | _ => none

def isCount : DirectiveName → Bool
  | .exactLength | .minLength | .maxLength | .exactSize | .minSize | .maxSize => true
  | _ => false

/-- The quantity that a bound is about: how many members a value has, or the value itself. -/
def quantity? (name : DirectiveName) (v : Value) : Option Number :=
  if name.isCount then v.count?.map fun (n : Nat) => .int n else v.number?

theorem quantity?_ofNumber {name : DirectiveName} (h : name.isCount = false) (x : Number) :
    name.quantity? (.ofNumber x) = some x := by
  rw [quantity?, h]
  exact Value.number?_ofNumber x

theorem quantity?_congr {a b : DirectiveName} (h : a.isCount = b.isCount) (v : Value) :
    a.quantity? v = b.quantity? v := by
  rw [quantity?, h, quantity?]

end DirectiveName

namespace Directive

variable {v : Value} {x : Number}

private theorem checkCount_eq_ok_iff (r : Relation) {n : Nat} (h : v.count? = some n) (y : Number)
    (path : String) :
    checkCount r (.ofNumber y) v path = .ok () ↔ r.accepts (.int n) y = true := by
  have hholds := r.holds_ofNumber (v := .int n) rfl y
  simp only [checkCount, h, hholds]
  exact demand_eq_ok_iff

private theorem checkBound_eq_ok_iff (r : Relation) (h : v.number? = some x) (y : Number)
    (path : String) :
    checkBound r (.ofNumber y) v path = .ok () ↔ r.accepts x y = true := by
  have hholds := r.holds_ofNumber h y
  simp only [checkBound, hholds]
  exact demand_eq_ok_iff

/-- A bound accepts the values whose quantity stands in its relation to the limit. -/
theorem check_accepts_iff [Library] {name : DirectiveName} {r : Relation}
    (hr : name.relation? = some r) (hv : name.quantity? v = some x) (y : Number) (path : String) :
    (Directive.mk name (.ofNumber y)).check v path = .ok () ↔ r.accepts x y = true := by
  cases name with
  | exactLength | minLength | maxLength | exactSize | minSize | maxSize =>
      obtain ⟨n, hn, rfl⟩ := Option.map_eq_some_iff.mp hv
      cases hr
      exact checkCount_eq_ok_iff _ hn y path
  | exact | min | max | greater | less =>
      cases hr
      exact checkBound_eq_ok_iff _ hv y path
  | required | pattern | address | hexadecimal | email | precision | integer | timestamp
  | unique => contradiction

theorem check_bound_eq_ok_iff [Library] {name : DirectiveName} {r : Relation} {y : Number}
    {p q : Point} (hr : name.relation? = some r) (hv : name.quantity? v = some x)
    (hx : x.point? = some p) (hy : y.point? = some q) (path : String) :
    (Directive.mk name (.ofNumber y)).check v path = .ok () ↔ r.Between p q := by
  rw [← Relation.accepts_iff r hx hy]
  exact check_accepts_iff hr hv y path

end Directive

/-- The names stand for bounds of the ends they are of, all on one quantity. -/
structure BoundNames.Lawful (names : BoundNames) : Prop where
  point : names.point.relation? = some .exactly
  lower : names.lower.relation? = some .atLeast
  upper : names.upper.relation? = some .atMost
  strict : ∀ s, names.strict = some s →
    s.1.relation? = some .above ∧ s.2.relation? = some .below
  isCount : names.lower.isCount = names.point.isCount ∧
    names.upper.isCount = names.point.isCount ∧
    ∀ s, names.strict = some s →
      s.1.isCount = names.point.isCount ∧ s.2.isCount = names.point.isCount

namespace BoundNames

theorem lawful_length : length.Lawful := by
  constructor <;> simp [length, DirectiveName.relation?, DirectiveName.isCount]

theorem lawful_range : range.Lawful := by
  constructor <;> simp [range, DirectiveName.relation?, DirectiveName.isCount]

theorem lawful_continuousRange : continuousRange.Lawful := by
  constructor <;> simp [continuousRange, range, DirectiveName.relation?, DirectiveName.isCount]

theorem lawful_size : size.Lawful := by
  constructor <;> simp [size, DirectiveName.relation?, DirectiveName.isCount]

end BoundNames

namespace Interval

theorem endDirective_ok {inclusive strict : DirectiveName} {isStrict : Bool} {step : Int}
    {bound : Number} {isIncluded : Bool} {ds : List Directive}
    (h : endDirective inclusive strict isStrict step bound isIncluded = .ok ds) :
    ∃ infinite, bound.isInfinite? = some infinite ∧
      ds = if infinite then [] else
        if isIncluded then [⟨inclusive, .ofNumber bound⟩] else
        if isStrict then [⟨strict, .ofNumber bound⟩] else
        [⟨inclusive, .ofNumber (if step = 0 then bound else bound.shift step)⟩] := by
  obtain ⟨infinite, hinfinite, h⟩ := bind_eq_ok_iff.mp h
  refine ⟨infinite, ?_, ?_⟩
  · cases hb : bound.isInfinite? with
    | none => simp [Bound.isInfinite, hb] at hinfinite
    | some b => simpa [Bound.isInfinite, hb] using hinfinite
  · cases infinite <;> cases isIncluded <;> cases isStrict <;>
      simpa [pure_eq_ok_iff, eq_comm, Bound.toValue, Bound.shift, bind, pure, Except.bind,
        Except.pure] using h

/-- What the directive of an end accepts: everything if the end is infinite. -/
theorem endDirective_met_iff [Library] {inclusive strict : DirectiveName} {isStrict : Bool}
    {step : Int} {bound : Number} {isIncluded : Bool} {r s : Relation} {ds : List Directive}
    {v : Value} {x : Number}
    (h : endDirective inclusive strict isStrict step bound isIncluded = .ok ds)
    (hr : inclusive.relation? = some r) (hs : isStrict = true → strict.relation? = some s)
    (hinclusive : inclusive.quantity? v = some x)
    (hstrict : isStrict = true → strict.quantity? v = some x) (path : String) :
    (∀ d ∈ ds, d.check v path = .ok ()) ↔
      bound.isInfinite? = some true ∨
        if isStrict && !isIncluded then s.accepts x bound = true
        else r.accepts x (if isIncluded || step == 0 then bound else bound.shift step) = true := by
  obtain ⟨infinite, hinfinite, rfl⟩ := endDirective_ok h
  have hcheck := fun y => Directive.check_accepts_iff hr hinclusive y path
  cases infinite with
  | true => simp [hinfinite]
  | false =>
      cases isIncluded with
      | true => simp [hinfinite, hcheck]
      | false =>
          cases isStrict with
          | true => simp [hinfinite, Directive.check_accepts_iff (hs rfl) (hstrict rfl) _ path]
          | false => simp [hinfinite, hcheck]

end Interval

end TermRules
