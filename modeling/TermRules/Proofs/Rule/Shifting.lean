import Mathlib.Data.Rat.Floor
import TermRules.Program
import TermRules.Proofs.Rule.Ends

/-!
Whether the bounds of an interval accept the whole numbers in it when an exclusive end is moved by
one. The whole number next to the end decides: it is in the interval if any is, and no other is
turned away unless it is. An end that is a whole number itself, and moves without being rounded,
never passes it.
-/

namespace TermRules

/-- The number is no finite one, or a whole one that moves by exactly `n`. -/
def Number.MovesExactly (a : Number) (n : ℤ) : Prop :=
  ∀ q, a.point? = some (.at q) → ∃ k : ℤ, q = k ∧ (a.shift n).point? = some (.at (k + n : ℤ))

private theorem Number.movesExactly_int (k n : ℤ) : (int k).MovesExactly n := by
  intro q hq
  cases hq
  exact ⟨k, rfl, rfl⟩

/-- Whole doubles move exactly as long as they do not get past the integers that all have
a double. -/
theorem Number.movesExactly_double {d : Double} {k n : ℤ} (hd : d.point? = some (.at k))
    (h : |k + n| ≤ 2 ^ 53) : (double d).MovesExactly n := by
  intro q hq
  obtain rfl : (k : ℚ) = q := Point.at.inj (Option.some.inj (hd.symm.trans hq))
  have hsum : (k : ℚ) + n = (k + n : ℤ) := (Int.cast_add k n).symm
  obtain ⟨t, ht, hle⟩ := le_shift hq (.of_int h) hsum.ge
  obtain ⟨t', ht', hge⟩ := shift_le hq (.of_int h) hsum.le
  obtain rfl : t = t' := Option.some.inj (ht.symm.trans ht')
  exact ⟨k, rfl, ht.trans (congrArg some (le_antisymm hge hle))⟩

namespace Interval

/-- The whole number next to an exclusive end is in the interval, and the moved end passes it. -/
inductive Oversteps (i : Interval Number) (n : ℤ) : Prop
  | lower {q : ℚ} (exclusive : i.lowerInclusive = false) (bound : i.lower.point? = some (.at q))
      (next : n = ⌊q⌋ + 1) (contains : i.Contains (.int n))
      (beyond : (Number.int n).below (i.lower.shift 1) = true)
  | upper {q : ℚ} (exclusive : i.upperInclusive = false) (bound : i.upper.point? = some (.at q))
      (next : n = ⌈q⌉ - 1) (contains : i.Contains (.int n))
      (beyond : (i.upper.shift (-1)).below (.int n) = true)

variable {names : BoundNames} {adjust : Bool} {i : Interval Number} {n : ℤ} {q : ℚ}

/-- An end that moves exactly never passes the whole number next to it. -/
theorem not_oversteps_of_movesExactly (hlower : i.lowerInclusive = false → i.lower.MovesExactly 1)
    (hupper : i.upperInclusive = false → i.upper.MovesExactly (-1)) : ¬ i.Oversteps n := by
  intro h
  cases h with
  | lower exclusive bound next contains beyond =>
      obtain ⟨k, rfl, hshift⟩ := hlower exclusive _ bound
      rw [Int.floor_intCast] at next
      rw [Number.below_iff_lt rfl hshift, next] at beyond
      exact lt_irrefl _ beyond
  | upper exclusive bound next contains beyond =>
      obtain ⟨k, rfl, hshift⟩ := hupper exclusive _ bound
      rw [Int.ceil_intCast] at next
      rw [Number.below_iff_lt hshift rfl, next] at beyond
      exact lt_irrefl _ beyond

/-- A lower end that is moved past a count has a count next to it. -/
private theorem next_nonneg (hl : i.lower.point? = some (.at q)) (hn : 0 ≤ n)
    (h : (Number.int n).below (i.lower.shift 1) = true) : 0 ≤ ⌊q⌋ + 1 := by
  by_contra hneg
  have hle : q + (1 : ℤ) ≤ 0 := by
    have hfloor := Int.lt_floor_add_one q
    have hnext : (⌊q⌋ : ℚ) + 1 + 1 ≤ 0 := by exact_mod_cast not_le.mp hneg
    push_cast
    linarith
  obtain ⟨t, ht, hle⟩ := Number.shift_le hl .zero hle
  rw [Number.below_iff_lt rfl ht] at h
  have hzero : Point.at 0 ≤ .at n := (Point.at_le_at _ _).mpr (by exact_mod_cast hn)
  exact not_lt.mpr (hle.trans hzero) h

namespace Side

/-- The whole number next to an exclusive end. -/
def next : Side → ℚ → ℤ
  | lower, q => ⌊q⌋ + 1
  | upper, q => ⌈q⌉ - 1

/-- The whole numbers within an exclusive end are those from the next one on. -/
theorem between_next_iff (side : Side) (n : ℤ) (q : ℚ) :
    side.relation.Between (.at n) (.at (side.next q)) ↔
      side.strictRelation.Between (.at n) (.at q) := by
  cases side with
  | lower =>
      change Point.at (⌊q⌋ + 1 : ℤ) ≤ .at n ↔ Point.at q < .at n
      rw [Point.at_le_at, Point.at_lt_at, Int.cast_le]
      exact Int.add_one_le_iff.trans Int.floor_lt
  | upper =>
      change Point.at n ≤ .at (⌈q⌉ - 1 : ℤ) ↔ Point.at n < .at q
      rw [Point.at_le_at, Point.at_lt_at, Int.cast_le]
      exact Int.le_sub_one_iff.trans Int.lt_ceil

/-- The whole number next to an exclusive end is in the interval if any is. -/
theorem contains_next (side : Side) (free : i.NaNFree) (exclusive : side.isIncluded i = false)
    (hq : (side.bound i).point? = some (.at q)) (hn : i.Contains (.int n)) :
    side.relation.Between (.at n) (.at (side.next q)) ∧ i.Contains (.int (side.next q)) := by
  rw [side.contains_iff] at hn ⊢
  obtain ⟨b, hb⟩ := Number.exists_point (side.other.not_isNaN free)
  have hnext : side.relation.Between (.at n) (.at (side.next q)) := by
    rw [between_next_iff]
    simpa [exclusive] using (side.holds_iff hq rfl).mp hn.1
  refine ⟨hnext, (side.holds_iff hq rfl).mpr ?_, ?_⟩
  · rw [exclusive, if_neg Bool.false_ne_true, ← between_next_iff]
    exact side.between_refl _
  · exact hn.2.mono hb rfl rfl (side.other_between_iff.mpr hnext)

private theorem oversteps (side : Side) (exclusive : side.isIncluded i = false)
    (hq : (side.bound i).point? = some (.at q)) (contains : i.Contains (.int (side.next q)))
    (beyond : ¬ side.relation.accepts (.int (side.next q))
      ((side.bound i).shift (side.step true)) = true) : i.Oversteps (side.next q) := by
  cases side with
  | lower =>
      refine .lower exclusive hq rfl contains ?_
      simpa [relation, Relation.accepts, bound, step] using beyond
  | upper =>
      refine .upper exclusive hq rfl contains ?_
      simpa [relation, Relation.accepts, bound, step] using beyond

/-- A whole number in the interval that an end turns away shows that the end oversteps. -/
theorem exists_oversteps (side : Side) (free : i.NaNFree)
    (hq : (side.bound i).point? = some (.at q)) (hn : i.Contains (.int n))
    (takes : names.Takes (.at n))
    (h : ¬ side.relation.accepts (.int n) (side.moved adjust i) = true) :
    adjust = true ∧ ∃ m, i.Oversteps m ∧ names.Takes (.at m) := by
  rw [moved_eq] at h
  split at h
  · rw [side.relation.accepts_iff rfl hq] at h
    exact absurd ((side.contains_iff.mp hn).1.between hq rfl) h
  · rename_i hflags
    rw [Bool.or_eq_true, not_or, Bool.not_eq_true, beq_iff_eq, step_eq_zero_iff,
      Bool.not_eq_false] at hflags
    obtain ⟨exclusive, rfl⟩ := hflags
    obtain ⟨hnext, hcontains⟩ := side.contains_next free exclusive hq hn
    obtain ⟨t, ht⟩ := Number.exists_point (a := (side.bound i).shift (side.step true))
      fun hnan => h (by cases side <;> simp [relation, Relation.accepts, hnan.not_below_left,
        hnan.not_below_right])
    refine ⟨rfl, _, side.oversteps exclusive hq hcontains ?_, BoundNames.takes_int fun hcount => ?_⟩
    · rw [side.relation.accepts_iff rfl ht] at h ⊢
      exact fun hpast => h (side.between_trans hnext hpast)
    · have hn := takes.nonneg hcount
      cases side with
      | lower =>
          refine next_nonneg hq hn ?_
          simpa [relation, Relation.accepts, bound, step] using h
      | upper =>
          refine hn.trans ?_
          simpa [relation, Relation.Between, Point.at_le_at] using hnext

/-- An end lets the whole numbers in the interval pass unless it oversteps. -/
theorem met_of_contains (side : Side) (strict : names.strict = none) (free : i.NaNFree)
    (hn : i.Contains (.int n)) (takes : names.Takes (.at n))
    (hover : ¬ (adjust = true ∧ ∃ m, i.Oversteps m ∧ names.Takes (.at m))) :
    side.Met names adjust i (.int n) := by
  obtain ⟨b, hb⟩ := Number.exists_point (side.not_isNaN free)
  rw [met_iff, if_pos strict]
  rcases b.infinite_or_at with hinfinite | ⟨q, rfl⟩
  · exact .inl ((Number.isInfinite?_eq_some_true_iff hb).mpr hinfinite)
  · exact .inr (not_not.mp fun h => hover (side.exists_oversteps free hb hn takes h))

end Side

section Demands

/-- The bounds let the whole numbers in the interval pass unless one of them oversteps. -/
theorem met_of_contains (strict : names.strict = none) (free : i.NaNFree) (hn : i.Contains (.int n))
    (takes : names.Takes (.at n))
    (hover : ¬ (adjust = true ∧ ∃ m, i.Oversteps m ∧ names.Takes (.at m))) :
    i.Met names adjust (.int n) := by
  obtain ⟨l, hl⟩ := Number.exists_point free.1
  obtain ⟨u, hu⟩ := Number.exists_point free.2
  rw [Met]
  split
  · rename_i hsame
    obtain rfl := (Number.same_iff_eq hl hu).mp hsame
    have habove := (aboveLower_iff hl rfl).mp hn.1
    have hbelow := (belowUpper_iff hu rfl).mp hn.2
    rw [Number.same_iff_eq rfl hl]
    grind
  · exact ⟨Side.lower.met_of_contains strict free hn takes hover,
      Side.upper.met_of_contains strict free hn takes hover⟩

private theorem Oversteps.contains (h : i.Oversteps n) : i.Contains (.int n) := by
  cases h <;> assumption

private theorem Oversteps.not_met (h : i.Oversteps n) (strict : names.strict = none)
    (free : i.NaNFree) : ¬ i.Met names true (.int n) := by
  obtain ⟨l, hl⟩ := Number.exists_point free.1
  obtain ⟨u, hu⟩ := Number.exists_point free.2
  have habove := (aboveLower_iff hl rfl).mp h.contains.1
  have hbelow := (belowUpper_iff hu rfl).mp h.contains.2
  have hne (hends : ¬ (i.lowerInclusive = true ∧ i.upperInclusive = true)) :
      ¬ i.lower.same i.upper = true := by
    rw [Number.same_iff_eq hl hu]
    grind
  rw [Met]
  cases h with
  | lower exclusive bound next contains beyond =>
      rw [if_neg (hne (by simp [exclusive])), lowerMet_iff_of_finite bound, if_pos strict,
        movedLower, exclusive]
      exact fun hmet => hmet.1 beyond
  | upper exclusive bound next contains beyond =>
      rw [if_neg (hne (by simp [exclusive])), upperMet_iff_of_finite bound, if_pos strict,
        movedUpper, exclusive]
      exact fun hmet => hmet.2 beyond

end Demands

section Whole

variable {ds : List Directive}

/-- Every value whose quantity is a whole number of the interval passes the bounds unless the moved
end oversteps, which it may only do if exclusive ends are moved. -/
theorem directives_accept_whole_iff [Library] (law : names.Lawful) (strict : names.strict = none)
    (free : i.NaNFree) (h : i.directives names adjust = .ok ds) (path : String) :
    (∀ v x, names.Measures v x → i.Contains x → ∀ d ∈ ds, d.check v path = .ok ()) ↔
      ¬ (adjust = true ∧ ∃ n, i.Oversteps n ∧ names.Takes (.at n)) := by
  constructor
  · rintro hall ⟨rfl, n, hover, htakes⟩
    obtain ⟨v, y, hy, hpoint⟩ := BoundNames.exists_measures (x := .int n) trivial rfl htakes
    have hcongr : y.point? = (Number.int n).point? := hpoint
    have hmet := (directives_met_iff law h free hy path).mp
      (hall v y hy ((contains_congr hcongr i).mpr hover.contains))
    exact hover.not_met strict free ((met_congr hcongr).mp hmet)
  · intro hover v x hx hcontains
    obtain ⟨n, hn⟩ := hx.whole strict
    have hcongr : (Number.int n).point? = x.point? := hn.symm
    rw [directives_met_iff law h free hx path, ← met_congr hcongr]
    exact met_of_contains strict free ((contains_congr hcongr i).mpr hcontains) (hx.takes hn) hover

/-- The numbers between one and ten, with neither. -/
def betweenOneAndTen : Interval Number :=
  ⟨.double (.finite 1), .int 10, false, false⟩

section Program

open Program

theorem directives_accept_whole_between :
    ∃ ds, betweenOneAndTen.directives .range true = .ok ds ∧
      ∀ n : ℤ, 1 < n → n < 10 → ∀ d ∈ ds, d.check (.int n) "" = .ok () := by
  have hupper := Number.isInfinite?_of_small (n := 10) (by decide)
  obtain ⟨ds, hds⟩ := exists_directives (i := betweenOneAndTen)
    (by simp [betweenOneAndTen, Number.isInfinite?]) (by simp [betweenOneAndTen, hupper])
    .range true
  have hover (n : ℤ) : ¬ betweenOneAndTen.Oversteps n := by
    refine not_oversteps_of_movesExactly (fun _ => ?_) (fun _ => Number.movesExactly_int 10 (-1))
    exact Number.movesExactly_double (k := 1) (by simp [Double.point?]) (by decide)
  refine ⟨ds, hds, fun n hlower hupper => ?_⟩
  refine (directives_accept_whole_iff BoundNames.lawful_range rfl (by decide) hds "").mpr
    (fun h => h.2.elim fun m hm => hover m hm.1) _ _ (BoundNames.measures_int n (by decide))
    ⟨(aboveLower_iff rfl rfl).mpr (.inl ?_), (belowUpper_iff rfl rfl).mpr (.inl ?_)⟩
  · rw [Point.at_lt_at]
    exact_mod_cast hlower
  · rw [Point.at_lt_at]
    exact_mod_cast hupper

end Program

/-- The numbers between a half and three, without the half. -/
def halfToThree : Interval Number :=
  ⟨.double (.finite (1 / 2)), .int 3, false, true⟩

section Program

open Program

theorem directives_reject_whole_next_to_half :
    halfToThree.Contains (.int 1) ∧
      ∃ ds, halfToThree.directives .range true = .ok ds ∧ ¬ ∀ d ∈ ds,
      d.check (.int 1) "" = .ok () := by
  have hupper := Number.isInfinite?_of_small (n := 3) (by decide)
  obtain ⟨ds, hds⟩ :=
    exists_directives (i := halfToThree) (by simp [halfToThree, Number.isInfinite?])
    (by simp [halfToThree, hupper]) .range true
  have hfloor : ⌊(1 / 2 : ℚ)⌋ = 0 := by decide +kernel
  have hover : halfToThree.Oversteps 1 :=
    .lower rfl rfl (by rw [hfloor]; rfl) (by decide +kernel) (by decide +kernel)
  refine ⟨hover.contains, ds, hds, fun hall => ?_⟩
  have hmet := (directives_met_iff BoundNames.lawful_range hds (by decide)
    (BoundNames.measures_int 1 (by decide)) "").mp hall
  exact hover.not_met rfl (by decide) hmet

end Program

end Whole

end Interval

end TermRules
