import Mathlib.Order.Bounds.Basic
import TermRules.Proofs.Interval.Intersection

/-!
What is left of constraints that some number satisfies all of: the tightest of their ends. It
depends on which constraints there are and on nothing else, not on their order and not on how often
one of them comes. Constraints without a common number are not covered, since once bounds have
crossed the order in which constraints are taken in matters.
-/

namespace TermRules

namespace Interval

variable {os os' : List (Option (Interval Number))} {i k k' : Interval Number} {m : Number}
  {p l u : Point}

/-- Where the constraints of a list begin. -/
def lowerPoints (os : List (Option (Interval Number))) : Set Point :=
  {p | ∃ i, some i ∈ os ∧ i.normalize.lower.point? = some p}

/-- Where the constraints of a list end. -/
def upperPoints (os : List (Option (Interval Number))) : Set Point :=
  {p | ∃ i, some i ∈ os ∧ i.normalize.upper.point? = some p}

/-- The interval is bounded by the greatest of the lower bounds, which belongs to it if it belongs
to every constraint that begins there, and by the least of the upper bounds likewise. -/
structure IsTightest (os : List (Option (Interval Number))) (k : Interval Number) : Prop where
  lower : ∃ l, k.lower.point? = some l ∧ IsGreatest (lowerPoints os) l ∧
    (k.lowerInclusive = true ↔
      ∀ i, some i ∈ os → i.normalize.lower.point? = some l → i.normalize.lowerInclusive = true)
  upper : ∃ u, k.upper.point? = some u ∧ IsLeast (upperPoints os) u ∧
    (k.upperInclusive = true ↔
      ∀ i, some i ∈ os → i.normalize.upper.point? = some u → i.normalize.upperInclusive = true)

private theorem IsTightest.congr (h : k.IsTightest os) (hmem : ∀ i, some i ∈ os' ↔ some i ∈ os) :
    k.IsTightest os' where
  lower := by simpa only [lowerPoints, hmem] using h.lower
  upper := by simpa only [upperPoints, hmem] using h.upper

/-- There is one tightest interval, up to the form of its bounds. -/
theorem IsTightest.alike (h : k.IsTightest os) (h' : k'.IsTightest os) : k.Alike k' := by
  obtain ⟨l, hl, hgreatest, hlower⟩ := h.lower
  obtain ⟨l', hl', hgreatest', hlower'⟩ := h'.lower
  obtain ⟨u, hu, hleast, hupper⟩ := h.upper
  obtain ⟨u', hu', hleast', hupper'⟩ := h'.upper
  obtain rfl := hgreatest.unique hgreatest'
  obtain rfl := hleast.unique hleast'
  constructor
  · exact (Number.same_iff_eq hl hl').mpr rfl
  · exact (Number.same_iff_eq hu hu').mpr rfl
  · rw [Bool.eq_iff_iff, hlower, hlower']
  · rw [Bool.eq_iff_iff, hupper, hupper']

private theorem mem_lowerPoints_concat :
    p ∈ lowerPoints (os ++ [some i]) ↔ p ∈ lowerPoints os ∨ i.normalize.lower.point? = some p := by
  simp only [lowerPoints, Set.mem_ofPred_eq, List.mem_append, List.mem_singleton, Option.some.injEq,
    or_and_right, exists_or, exists_eq_left]

private theorem mem_upperPoints_concat :
    p ∈ upperPoints (os ++ [some i]) ↔ p ∈ upperPoints os ∨ i.normalize.upper.point? = some p := by
  simp only [upperPoints, Set.mem_ofPred_eq, List.mem_append, List.mem_singleton, Option.some.injEq,
    or_and_right, exists_or, exists_eq_left]

private theorem lowerPoints_concat (hi : i.normalize.lower.point? = some p) :
    lowerPoints (os ++ [some i]) = insert p (lowerPoints os) := by
  ext q
  rw [mem_lowerPoints_concat, Set.mem_insert_iff, hi, Option.some.injEq, or_comm, eq_comm]

private theorem upperPoints_concat (hi : i.normalize.upper.point? = some p) :
    upperPoints (os ++ [some i]) = insert p (upperPoints os) := by
  ext q
  rw [mem_upperPoints_concat, Set.mem_insert_iff, hi, Option.some.injEq, or_comm, eq_comm]

private theorem forall_mem_concat {P : Interval Number → Prop} :
    (∀ j, some j ∈ os ++ [some i] → P j) ↔ (∀ j, some j ∈ os → P j) ∧ P i := by
  simp only [List.mem_append, List.mem_singleton, Option.some.injEq]
  constructor
  · intro h
    exact ⟨fun j hj => h j (.inl hj), h i (.inr rfl)⟩
  · rintro ⟨hos, hi⟩ j (hj | rfl)
    · exact hos j hj
    · exact hi

/-- One constraint is its own tightest interval. -/
theorem isTightest_singleton (hi : i.NaNFree) (hnone : ∀ j, some j ∉ os) :
    i.normalize.IsTightest (os ++ [some i]) := by
  obtain ⟨p, hp⟩ := Number.exists_point hi.normalize.1
  obtain ⟨q, hq⟩ := Number.exists_point hi.normalize.2
  have hlower : lowerPoints os = ∅ := by
    ext x
    simp [lowerPoints, hnone]
  have hupper : upperPoints os = ∅ := by
    ext x
    simp [upperPoints, hnone]
  constructor
  · refine ⟨p, hp, ?_, ?_⟩
    · rw [lowerPoints_concat hp, hlower, insert_empty_eq]
      exact isGreatest_singleton
    · rw [forall_mem_concat]
      simp [hnone, hp]
  · refine ⟨q, hq, ?_, ?_⟩
    · rw [upperPoints_concat hq, hupper, insert_empty_eq]
      exact isLeast_singleton
    · rw [forall_mem_concat]
      simp [hnone, hq]

/-- Taking in one more constraint leaves the tightest interval of one more. -/
theorem IsTightest.combine (h : k.IsTightest os) (hk : ¬ k.Reversed) (hi : i.NaNFree) :
    (k.combine i).IsTightest (os ++ [some i]) := by
  obtain ⟨l, hl, hgreatest, hlower⟩ := h.lower
  obtain ⟨u, hu, hleast, hupper⟩ := h.upper
  obtain ⟨p, hp⟩ := Number.exists_point hi.normalize.1
  obtain ⟨q, hq⟩ := Number.exists_point hi.normalize.2
  rw [Interval.combine, normalize_of_not_reversed hk]
  constructor
  · refine ⟨max l p, meet_lower_point hl hp, ?_, ?_⟩
    · rw [lowerPoints_concat hp, max_comm]
      exact hgreatest.insert p
    · rw [meet_lowerInclusive_iff hl hp, forall_mem_concat, hlower, hp, Option.some.injEq]
      refine and_congr ?_ (imp_congr_left right_eq_sup.symm)
      rcases le_or_gt p l with hpl | hlp
      · rw [max_eq_left hpl]
        exact forall_prop_of_true hpl
      · -- No constraint of the list begins beyond the greatest of their lower bounds.
        rw [max_eq_right hlp.le]
        refine iff_of_true (fun hpl => absurd hpl (not_le.mpr hlp)) fun j hj hjp => ?_
        exact absurd (hgreatest.2 ⟨j, hj, hjp⟩) (not_le.mpr hlp)
  · refine ⟨min u q, meet_upper_point hu hq, ?_, ?_⟩
    · rw [upperPoints_concat hq, min_comm]
      exact hleast.insert q
    · rw [meet_upperInclusive_iff hu hq, forall_mem_concat, hupper, hq, Option.some.injEq]
      refine and_congr ?_ (imp_congr_left right_eq_inf.symm)
      rcases le_or_gt u q with huq | hqu
      · rw [min_eq_left huq]
        exact forall_prop_of_true huq
      · rw [min_eq_right hqu.le]
        refine iff_of_true (fun huq => absurd huq (not_le.mpr hqu)) fun j hj hjq => ?_
        exact absurd (hleast.2 ⟨j, hj, hjq⟩) (not_le.mpr hqu)

private theorem mergeAll_eq_none_iff : mergeAll os = none ↔ ∀ i, some i ∉ os := by
  induction os using List.reverseRecOn with
  | nil => simp [mergeAll]
  | append_singleton os o ih =>
      rw [mergeAll_concat]
      cases o with
      | none => simp [merge_none, ih]
      | some i =>
          refine iff_of_false ?_ fun h => h i (by simp)
          cases mergeAll os <;> simp [merge]

/-- What is left of constraints with a common number is the tightest interval. -/
theorem isTightest_mergeAll (free : ∀ i, some i ∈ os → i.NaNFree)
    (common : ∀ i, some i ∈ os → i.normalize.Contains m) :
    ∀ k, mergeAll os = some k → k.IsTightest os := by
  induction os using List.reverseRecOn with
  | nil =>
      intro k hk
      simp [mergeAll] at hk
  | append_singleton os o ih =>
      have hleft := fun i (hi : some i ∈ os) => free i (List.mem_append_left _ hi)
      have hcommon := fun i (hi : some i ∈ os) => common i (List.mem_append_left _ hi)
      intro k hk
      rw [mergeAll_concat] at hk
      cases o with
      | none =>
          rw [merge_none] at hk
          exact (ih hleft hcommon k hk).congr (by simp)
      | some i =>
          have hi : i.NaNFree := free i (by simp)
          cases h : mergeAll os with
          | none =>
              obtain rfl : i.normalize = k := by simpa [h, merge] using hk
              exact isTightest_singleton hi (mergeAll_eq_none_iff.mp h)
          | some j =>
              obtain rfl : j.combine i = k := by simpa [h, merge] using hk
              -- The common number keeps the bounds of what is left so far from crossing.
              obtain ⟨jfree, hj⟩ := contains_mergeAll hleft hcommon j h
              exact (ih hleft hcommon j h).combine (hj.not_reversed jfree) hi

/-- Constraints with a common number leave the tightest interval, or nothing if there are none. In
which order they come and how often, as in a permutation of the list or one with members repeated,
makes no difference. -/
theorem mergeAll_of_same_constraints (free : ∀ i, some i ∈ os → i.NaNFree)
    (common : ∀ i, some i ∈ os → i.normalize.Contains m) (hmem : ∀ i, some i ∈ os' ↔ some i ∈ os) :
    Option.Rel Alike (mergeAll os') (mergeAll os) ∧
      (∀ k, mergeAll os = some k → k.IsTightest os) ∧
      (mergeAll os = none ↔ ∀ o ∈ os, o = none) := by
  have htightest := isTightest_mergeAll free common
  have htightest' : ∀ k, mergeAll os' = some k → k.IsTightest os := fun k hk =>
    (isTightest_mergeAll (fun i hi => free i ((hmem i).mp hi))
      (fun i hi => common i ((hmem i).mp hi)) k hk).congr fun i => (hmem i).symm
  refine ⟨?_, htightest, ?_⟩
  · have hnone : mergeAll os' = none ↔ mergeAll os = none := by
      simp only [mergeAll_eq_none_iff, hmem]
    cases hk' : mergeAll os' with
    | none =>
        rw [hnone.mp hk']
        exact .none
    | some k' =>
        obtain ⟨k, hk⟩ := Option.ne_none_iff_exists'.mp (mt hnone.mpr (by simp [hk']))
        rw [hk]
        exact .some ((htightest' k' hk').alike (htightest k hk))
  · rw [mergeAll_eq_none_iff]
    refine ⟨fun h o ho => ?_, fun h i hi => Option.some_ne_none i (h _ hi)⟩
    cases o with
    | none => rfl
    | some i => exact absurd ho (h i)

/-- Constraints with ties at both ends: two of them begin at two and two end at nine. -/
def aroundFive : List (Option (Interval Number)) :=
  [some aboveTwo, none, some ⟨.int 2, .int 9, true, false⟩,
    some ⟨.double (.finite 9), .int 0, true, true⟩]

/-- The same constraints in another order, two of them twice. -/
def shuffledAroundFive : List (Option (Interval Number)) :=
  [some ⟨.double (.finite 9), .int 0, true, true⟩, some aboveTwo,
    some ⟨.int 2, .int 9, true, false⟩,
    none, some aboveTwo, some ⟨.double (.finite 9), .int 0, true, true⟩]

theorem mergeAll_of_shuffled_aroundFive :
    Option.Rel Alike (mergeAll shuffledAroundFive) (mergeAll aroundFive) ∧
      IsTightest aroundFive ⟨.double (.finite 2), .int 9, false, false⟩ := by
  have hcases : ∀ i, some i ∈ aroundFive → i.NaNFree ∧ i.normalize.Contains (.int 5) := by
    intro i hi
    simp only [aroundFive, List.mem_cons, Option.some.injEq, reduceCtorEq,
      List.not_mem_nil, or_false, false_or] at hi
    rcases hi with rfl | rfl | rfl <;> decide
  have hmem : ∀ i, some i ∈ shuffledAroundFive ↔ some i ∈ aroundFive := by
    intro i
    simp only [shuffledAroundFive, aroundFive, List.mem_cons, Option.some.injEq, reduceCtorEq,
      List.not_mem_nil, or_false, false_or]
    tauto
  obtain ⟨halike, htightest, -⟩ := mergeAll_of_same_constraints (fun i hi => (hcases i hi).1)
    (fun i hi => (hcases i hi).2) hmem
  exact ⟨halike, htightest _ (by decide)⟩

end Interval

end TermRules
