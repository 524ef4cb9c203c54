import Mathlib.Data.List.Induction
import TermRules.Proofs.Interval.Membership

/-!
What is left of a list of constraints once each has been taken into those before it. As long as some
number satisfies them all, it satisfies what is left exactly if it satisfies each. Without such a
number bounds can cross, and crossed bounds are put in order again before the next constraint.
-/

namespace TermRules

namespace Interval

/-- The constraints of a list merged, the first one first. -/
def mergeAll {β : Type} [Bound β] (os : List (Option (Interval β))) : Option (Interval β) :=
  os.foldl merge none

theorem mergeAll_concat {β : Type} [Bound β] (os : List (Option (Interval β)))
    (o : Option (Interval β)) : mergeAll (os ++ [o]) = merge (mergeAll os) o := by
  simp [mergeAll]

theorem merge_none {β : Type} [Bound β] (o : Option (Interval β)) : merge o none = o := by
  cases o <;> rfl

/-- The interval with the ends that a rule cannot tell from inclusive ones made inclusive: infinite
ends, for which there is no bound, and if `loose` is set all others too. -/
def relax (loose : Bool) (i : Interval Number) : Interval Number :=
  { i with
    lowerInclusive := i.lowerInclusive || loose || i.lower.isInfinite? == some true
    upperInclusive := i.upperInclusive || loose || i.upper.isInfinite? == some true }

private theorem NaNFree.relax {i : Interval Number} (h : i.NaNFree) (loose : Bool) :
    (i.relax loose).NaNFree :=
  h

/-- Finite numbers see no difference at infinite ends. -/
theorem contains_relax_false_iff {i : Interval Number} (free : i.NaNFree) {x : Number} {q : ℚ}
    (hx : x.point? = some (.at q)) : (i.relax false).Contains x ↔ i.Contains x := by
  obtain ⟨l, hl⟩ := Number.exists_point free.1
  obtain ⟨u, hu⟩ := Number.exists_point free.2
  have hlower := Number.isInfinite?_eq_some_true_iff hl
  have hupper := Number.isInfinite?_eq_some_true_iff hu
  rw [Contains, Contains, aboveLower_iff (i := i.relax _) hl hx,
    belowUpper_iff (i := i.relax _) hu hx, aboveLower_iff hl hx, belowUpper_iff hu hx]
  simp only [relax, Bool.or_false, Bool.or_eq_true, beq_iff_eq, hlower, hupper]
  grind

private theorem isInfinite?_congr {a b : Number} (ha : ¬ a.IsNaN) (hb : ¬ b.IsNaN)
    (hab : ¬ a.below b = true) (hba : ¬ b.below a = true) :
    (a.isInfinite? == some true) = (b.isInfinite? == some true) := by
  obtain ⟨p, hp⟩ := Number.exists_point ha
  obtain ⟨q, hq⟩ := Number.exists_point hb
  rw [Number.below_iff_lt hp hq] at hab
  rw [Number.below_iff_lt hq hp] at hba
  have hpq : p = q := le_antisymm (not_lt.mp hba) (not_lt.mp hab)
  rw [Bool.eq_iff_iff, beq_iff_eq, beq_iff_eq, Number.isInfinite?_eq_some_true_iff hp,
    Number.isInfinite?_eq_some_true_iff hq, hpq]

private theorem meet_relax {a b : Interval Number} (ha : a.NaNFree) (hb : b.NaNFree)
    (loose : Bool) : (a.relax loose).meet (b.relax loose) = (a.meet b).relax loose := by
  have hl := isInfinite?_congr ha.1 hb.1
  have hu := isInfinite?_congr ha.2 hb.2
  simp only [meet, relax, Bound.below]
  congr 1
  · grind
  · grind
  · grind
  · grind

variable {os : List (Option (Interval Number))} {m : Number}

/-- What holds of each constraint in order, and of what is left after one more, holds of what is
left in the end. -/
theorem mergeAll_induct {P : Interval Number → Prop}
    (first : ∀ i, some i ∈ os → P i.normalize)
    (further : ∀ k i, P k → some i ∈ os → P (k.combine i)) :
    ∀ k, mergeAll os = some k → P k := by
  -- Constraints are taken in from the left, so what was taken in last comes off the right.
  induction os using List.reverseRecOn with
  | nil =>
      intro k hk
      simp [mergeAll] at hk
  | append_singleton os o ih =>
      replace ih := ih (fun i hi => first i (List.mem_append_left _ hi))
        fun k i hk hi => further k i hk (List.mem_append_left _ hi)
      intro k hk
      rw [mergeAll_concat] at hk
      cases o with
      | none =>
          rw [merge_none] at hk
          exact ih k hk
      | some i =>
          have hi : some i ∈ os ++ [some i] := by simp
          cases h : mergeAll os with
          | none =>
              simp only [h, merge, Option.some.injEq] at hk
              exact hk ▸ first i hi
          | some j =>
              simp only [h, merge, Option.some.injEq] at hk
              exact hk ▸ further j i (ih j h) hi

theorem mergeAll_bounds {P : Number → Prop}
    (h : ∀ i, some i ∈ os → P i.lower ∧ P i.upper) :
    ∀ k, mergeAll os = some k → P k.lower ∧ P k.upper := by
  apply mergeAll_induct
  · intro i hi
    exact normalize_bounds (h i hi)
  · intro k i hk hi
    exact meet_bounds (normalize_bounds hk) (normalize_bounds (h i hi))

theorem NaNFree.mergeAll (free : ∀ i, some i ∈ os → i.NaNFree) :
    ∀ k, mergeAll os = some k → k.NaNFree :=
  mergeAll_bounds (P := fun a => ¬ a.IsNaN) free

/-- What is left of constraints with the common number `m` holds `m`. -/
theorem contains_mergeAll (free : ∀ i, some i ∈ os → i.NaNFree)
    (common : ∀ i, some i ∈ os → i.normalize.Contains m) :
    ∀ k, mergeAll os = some k → k.NaNFree ∧ k.Contains m := by
  apply mergeAll_induct
  · intro i hi
    exact ⟨(free i hi).normalize, common i hi⟩
  · intro k i hk hi
    refine ⟨hk.1.combine (free i hi), ?_⟩
    -- Bounds with `m` between them have not crossed: putting them in order again changes nothing.
    rw [contains_combine hk.1 (free i hi), normalize_of_not_reversed (hk.2.not_reversed hk.1)]
    exact ⟨hk.2, common i hi⟩

theorem admits_mergeAll_relax_iff (free : ∀ i, some i ∈ os → i.NaNFree)
    (common : ∀ i, some i ∈ os → i.normalize.Contains m) (loose : Bool) (x : Number) :
    Admits ((mergeAll os).map (relax loose)) x ↔
      ∀ i, some i ∈ os → (i.normalize.relax loose).Contains x := by
  induction os using List.reverseRecOn with
  | nil => simp [mergeAll, Admits]
  | append_singleton os o ih =>
      have hleft := fun i (hi : some i ∈ os) => free i (List.mem_append_left _ hi)
      have hcommon := fun i (hi : some i ∈ os) => common i (List.mem_append_left _ hi)
      have hinv := contains_mergeAll hleft hcommon
      replace ih := ih hleft hcommon
      rw [mergeAll_concat]
      cases o with
      | none => simpa [merge_none] using ih
      | some i =>
          have hfree : i.NaNFree := free i (by simp)
          have hsplit : (∀ k, some k ∈ os ++ [some i] → (k.normalize.relax loose).Contains x) ↔
              (∀ k, some k ∈ os → (k.normalize.relax loose).Contains x) ∧
                (i.normalize.relax loose).Contains x := by
            simp only [List.mem_append, List.mem_singleton, Option.some.injEq]
            grind
          rw [hsplit, ← ih]
          cases h : mergeAll os with
          | none => simp [merge, Admits]
          | some j =>
              obtain ⟨jfree, hj⟩ := hinv j h
              have hjn : j.normalize = j := normalize_of_not_reversed (hj.not_reversed jfree)
              simp only [merge, Option.map_some, Admits, Option.some.injEq, forall_eq', combine,
                hjn, ← meet_relax jfree hfree.normalize]
              exact contains_meet (jfree.relax loose) (hfree.normalize.relax loose) x

/-- A constraint that lets a number in again: it lies between bounds that have crossed. -/
def Reopens (current incoming : Option (Interval Number)) (x : Number) : Prop :=
  ∃ k i, current = some k ∧ incoming = some i ∧ k.Reversed ∧ k.swap.Contains x ∧
    i.normalize.Contains x

/-- Taking in a further constraint narrows, except where it reopens. -/
theorem admits_of_admits_merge_iff {current incoming : Option (Interval Number)}
    (hcurrent : ∀ k, current = some k → k.NaNFree) (hincoming : ∀ i, incoming = some i → i.NaNFree)
    (x : Number) :
    (Admits (merge current incoming) x → Admits current x) ↔ ¬ Reopens current incoming x := by
  match current, incoming with
  | current, none => simp [merge_none, Reopens]
  | none, some i => simp [Admits, Reopens]
  | some k, some i =>
      have hk : k.NaNFree := hcurrent k rfl
      have hi : i.NaNFree := hincoming i rfl
      simp only [merge, Admits, Reopens, Option.some.injEq, forall_eq', contains_combine hk hi,
        exists_and_left, exists_eq_left']
      by_cases hr : k.Reversed
      · simp [normalize_of_reversed hr, not_contains_of_reversed hk hr, hr]
      · simp only [normalize_of_not_reversed hr, hr, false_and, not_false_eq_true, iff_true]
        exact And.left

/-- Some constraint of the list lets the number in again after those before it. -/
def Reopened (os : List (Option (Interval Number))) (x : Number) : Prop :=
  ∃ before o after, os = before ++ o :: after ∧ Reopens (mergeAll before) o x

private theorem Reopened.concat {x : Number} (h : Reopened os x) (o : Option (Interval Number)) :
    Reopened (os ++ [o]) x := by
  obtain ⟨before, p, after, rfl, h⟩ := h
  exact ⟨before, p, after ++ [o], by simp, h⟩

end Interval

end TermRules
