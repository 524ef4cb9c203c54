import TermRules.Proofs.Number.Rounding
import TermRules.Proofs.Rule.Sides

/-!
What the bounds of an interval demand end by end, whether or not any number is in the interval. An
infinite end demands nothing on either side. Ends without a strict bound are the moved ones: an
exclusive end is moved by one, which for doubles means by one and rounded.
-/

namespace TermRules

namespace BoundNames

/-- The value has the quantity `x` that bounds of these names are about: a number, and a whole one
unless exclusive ends have names of their own. -/
structure Measures (names : BoundNames) (v : Value) (x : Number) : Prop where
  quantity : names.point.quantity? v = some x
  onGrid : x.OnGrid
  number : ¬ x.IsNaN
  whole : names.strict = none → ∃ n : ℤ, x.point? = some (.at n)

/-- Some value has a quantity at the point. -/
def Takes (names : BoundNames) (p : Point) : Prop :=
  (names.strict = none → ∃ n : ℤ, p = .at n) ∧ (names.point.isCount = true → ∃ n : ℕ, p = .at n)

variable {names : BoundNames} {v : Value} {x : Number} {p : Point}

/-- Counts have no names for exclusive ends. -/
theorem Lawful.strict_of_isCount (law : names.Lawful) (h : names.point.isCount = true) :
    names.strict = none := by
  cases hs : names.strict with
  | none => rfl
  | some s =>
      have hrelation := (law.strict s hs).1
      have hcount := (law.isCount.2.2 s hs).1
      rw [h] at hcount
      cases hname : s.1 <;> simp_all [DirectiveName.relation?, DirectiveName.isCount]

theorem takes_int {n : ℤ} (h : names.point.isCount = true → 0 ≤ n) : names.Takes (.at n) := by
  refine ⟨fun _ => ⟨n, rfl⟩, fun hcount => ⟨n.toNat, ?_⟩⟩
  rw [← Int.cast_natCast, Int.toNat_of_nonneg (h hcount)]

theorem Takes.nonneg {n : ℤ} (h : names.Takes (.at n)) (hcount : names.point.isCount = true) :
    0 ≤ n := by
  obtain ⟨k, hk⟩ := h.2 hcount
  have hn : (n : ℚ) = k := Point.at.inj hk
  exact_mod_cast hn ▸ Nat.cast_nonneg k

theorem Measures.takes (h : names.Measures v x) (hp : x.point? = some p) : names.Takes p := by
  refine ⟨fun hs => ?_, fun hcount => ?_⟩
  · obtain ⟨n, hn⟩ := h.whole hs
    exact ⟨n, Option.some.inj (hp.symm.trans hn)⟩
  · obtain ⟨n, -, rfl⟩ := Option.map_eq_some_iff.mp
      ((if_pos hcount).symm.trans h.quantity : v.count?.map _ = some x)
    cases hp
    exact ⟨n, rfl⟩

theorem measures_count {n : ℕ} (hcount : names.point.isCount = true) (hv : v.count? = some n) :
    names.Measures v (.int n) := by
  refine ⟨?_, trivial, by simp [Number.IsNaN, Number.point?], fun _ => ⟨n, rfl⟩⟩
  rw [DirectiveName.quantity?, if_pos hcount, hv, Option.map_some]

theorem measures_int (n : ℤ) (hcount : ¬ names.point.isCount = true) :
    names.Measures (.int n) (.int n) := by
  refine ⟨?_, trivial, by simp [Number.IsNaN, Number.point?], fun _ => ⟨n, rfl⟩⟩
  exact DirectiveName.quantity?_ofNumber (Bool.eq_false_iff.mpr hcount) (.int n)

theorem exists_measures (grid : x.OnGrid) (hp : x.point? = some p) (h : names.Takes p) :
    ∃ v y, names.Measures v y ∧ y.point? = some p := by
  by_cases hcount : names.point.isCount = true
  · obtain ⟨n, rfl⟩ := h.2 hcount
    refine ⟨.list (List.replicate n .null), .int n, measures_count hcount ?_, rfl⟩
    simp [Value.count?]
  · refine ⟨.ofNumber x, x, ⟨?_, grid, Number.not_isNaN_of_point hp, fun hs => ?_⟩, hp⟩
    · exact DirectiveName.quantity?_ofNumber (Bool.eq_false_iff.mpr hcount) x
    · obtain ⟨n, hn⟩ := h.1 hs
      exact ⟨n, hn ▸ hp⟩

end BoundNames

namespace Interval

def OnGrid (i : Interval Number) : Prop :=
  i.lower.OnGrid ∧ i.upper.OnGrid

/-- The lower end that a bound without a strict name states. -/
def movedLower (adjust : Bool) (i : Interval Number) : Number :=
  if i.lowerInclusive || !adjust then i.lower else i.lower.shift 1

/-- The upper end that a bound without a strict name states. -/
def movedUpper (adjust : Bool) (i : Interval Number) : Number :=
  if i.upperInclusive || !adjust then i.upper else i.upper.shift (-1)

/-- What the bound of the lower end demands. -/
def LowerMet (names : BoundNames) (adjust : Bool) (i : Interval Number) (x : Number) : Prop :=
  i.lower.isInfinite? = some true ∨
    if names.strict = none then ¬ x.below (i.movedLower adjust) = true else i.AboveLower x

def UpperMet (names : BoundNames) (adjust : Bool) (i : Interval Number) (x : Number) : Prop :=
  i.upper.isInfinite? = some true ∨
    if names.strict = none then ¬ (i.movedUpper adjust).below x = true else i.BelowUpper x

/-- What the bounds of an interval demand: the one point if they are the same, and otherwise
both ends. -/
def Met (names : BoundNames) (adjust : Bool) (i : Interval Number) (x : Number) : Prop :=
  if i.lower.same i.upper = true then x.same i.lower = true
  else i.LowerMet names adjust x ∧ i.UpperMet names adjust x

variable {names : BoundNames} {adjust : Bool} {i : Interval Number} {ds : List Directive}
  {v : Value} {x : Number} {p l u : Point} {q : ℚ}

theorem lowerMet_iff_of_finite (hl : i.lower.point? = some (.at q)) :
    i.LowerMet names adjust x ↔
      if names.strict = none then ¬ x.below (i.movedLower adjust) = true else i.AboveLower x := by
  rw [LowerMet, Number.isInfinite?_eq_some_true_iff hl]
  simp

theorem upperMet_iff_of_finite (hu : i.upper.point? = some (.at q)) :
    i.UpperMet names adjust x ↔
      if names.strict = none then ¬ (i.movedUpper adjust).below x = true else i.BelowUpper x := by
  rw [UpperMet, Number.isInfinite?_eq_some_true_iff hu]
  simp

/-- Only the point of a number decides what demands it meets. -/
theorem met_congr {y : Number} (h : y.point? = x.point?) :
    i.Met names adjust y ↔ i.Met names adjust x := by
  have hbelow (z : Number) : y.below z = x.below z := by rw [Number.below, h, Number.below]
  have habove (z : Number) : z.below y = z.below x := by rw [Number.below, h, Number.below]
  have hsame (z : Number) : y.same z = x.same z := by rw [Number.same, h, Number.same]
  have hsame' (z : Number) : z.same y = z.same x := by rw [Number.same, h, Number.same]
  simp only [Met, LowerMet, UpperMet, AboveLower, BelowUpper, hbelow, habove, hsame, hsame']

theorem exists_endDirective {bound : Number} (h : bound.isInfinite? ≠ none)
    (inclusive strict : DirectiveName) (isStrict : Bool) (step : Int) (isIncluded : Bool) :
    ∃ ds, endDirective inclusive strict isStrict step bound isIncluded = .ok ds := by
  obtain ⟨b, hb⟩ := Option.ne_none_iff_exists'.mp h
  simp only [endDirective, Bound.isInfinite, hb]
  cases b <;> cases isIncluded <;> cases isStrict <;> exact ⟨_, rfl⟩

/-- Bounds are rendered unless an integer end is beyond the range of the doubles. -/
theorem exists_directives (hlower : i.lower.isInfinite? ≠ none)
    (hupper : i.upper.isInfinite? ≠ none) (names : BoundNames) (adjust : Bool) :
    ∃ ds, i.directives names adjust = .ok ds := by
  rw [directives]
  split
  · exact ⟨_, rfl⟩
  · obtain ⟨low, hlow⟩ := exists_endDirective hlower names.lower _ _ _ _
    obtain ⟨high, hhigh⟩ := exists_endDirective hupper names.upper _ _ _ _
    exact ⟨low ++ high, bind_eq_ok_iff.mpr ⟨low, hlow, bind_eq_ok_iff.mpr ⟨high, hhigh, rfl⟩⟩⟩

namespace Side

/-- The bound that this side states if it has no strict name. -/
def moved (side : Side) (adjust : Bool) (i : Interval Number) : Number :=
  match side with
  | lower => i.movedLower adjust
  | upper => i.movedUpper adjust

/-- What the bound of this side demands. -/
def Met (side : Side) (names : BoundNames) (adjust : Bool) (i : Interval Number) (x : Number) :
    Prop :=
  match side with
  | lower => i.LowerMet names adjust x
  | upper => i.UpperMet names adjust x

theorem moved_eq (side : Side) (adjust : Bool) (i : Interval Number) :
    side.moved adjust i =
      if side.isIncluded i || side.step adjust == 0 then side.bound i
      else (side.bound i).shift (side.step adjust) := by
  cases side <;> cases adjust <;>
    simp [moved, movedLower, movedUpper, isIncluded, step, bound]

theorem met_iff (side : Side) (names : BoundNames) (adjust : Bool) (i : Interval Number)
    (x : Number) :
    side.Met names adjust i x ↔
      (side.bound i).isInfinite? = some true ∨
        if names.strict = none then side.relation.accepts x (side.moved adjust i) = true
        else side.Holds i x := by
  cases side <;> simp [Met, LowerMet, UpperMet, bound, relation, Relation.accepts, moved, Holds]

/-- The bound of a side demands what is said of it. -/
theorem directives_met_iff [Library] (side : Side) (law : names.Lawful)
    (h : side.directives names adjust i = .ok ds) {q : Point}
    (hq : (side.bound i).point? = some q) (hx : names.point.quantity? v = some x)
    (hp : x.point? = some p) (path : String) :
    (∀ d ∈ ds, d.check v path = .ok ()) ↔ side.Met names adjust i x := by
  rw [endDirective_met_iff h (side.relation?_name law) (side.relation?_strictName law)
    (side.quantity?_name law hx) (side.quantity?_strictName law hx) path, met_iff, moved_eq]
  refine or_congr_right ?_
  cases hs : names.strict with
  | none => simp
  | some s =>
      rw [side.holds_iff hq hp]
      cases hincluded : side.isIncluded i <;>
        simp [side.relation.accepts_iff hp hq, side.strictRelation.accepts_iff hp hq]

end Side

theorem directives_met_iff [Library] (law : names.Lawful) (h : i.directives names adjust = .ok ds)
    (free : i.NaNFree) (hx : names.Measures v x) (path : String) :
    (∀ d ∈ ds, d.check v path = .ok ()) ↔ i.Met names adjust x := by
  obtain ⟨l, hl⟩ := Number.exists_point free.1
  obtain ⟨u, hu⟩ := Number.exists_point free.2
  obtain ⟨p, hp⟩ := Number.exists_point hx.number
  rw [directives_eq_sides] at h
  split at h
  · rename_i hpoint
    have hsame : i.lower.same i.upper = true := hpoint
    have hcheck := Directive.check_accepts_iff law.point hx.quantity i.lower path
    rw [Met, if_pos hsame]
    cases h
    rw [List.forall_mem_singleton]
    exact hcheck
  · rename_i hpoint
    have hsame : ¬ i.lower.same i.upper = true := hpoint
    obtain ⟨low, hlow, h⟩ := bind_eq_ok_iff.mp h
    obtain ⟨high, hhigh, h⟩ := bind_eq_ok_iff.mp h
    obtain rfl := pure_eq_ok_iff.mp h
    rw [Met, if_neg hsame, List.forall_mem_append,
      Side.lower.directives_met_iff law hlow hl hx.quantity hp path,
      Side.upper.directives_met_iff law hhigh hu hx.quantity hp path]
    rfl

end Interval

end TermRules
