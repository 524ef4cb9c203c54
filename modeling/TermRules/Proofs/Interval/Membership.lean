import TermRules.Interval.Basic
import TermRules.Proofs.Number.Order

/-!
The numbers in an interval, and what putting its bounds in order and meeting another interval do to
them. A NaN is in no interval, and an interval whose lower bound lies above its upper one is empty.
-/

namespace TermRules

namespace Interval

def AboveLower (i : Interval Number) (x : Number) : Prop :=
  i.lower.below x = true ∨ i.lowerInclusive = true ∧ i.lower.same x = true

def BelowUpper (i : Interval Number) (x : Number) : Prop :=
  x.below i.upper = true ∨ i.upperInclusive = true ∧ x.same i.upper = true

/-- Whether a number lies between the bounds, or at one that belongs to the interval. -/
def Contains (i : Interval Number) (x : Number) : Prop :=
  i.AboveLower x ∧ i.BelowUpper x

/-- Whether a number satisfies a constraint that may be absent. -/
def Admits (o : Option (Interval Number)) (x : Number) : Prop :=
  ∀ i, o = some i → i.Contains x

def NaNFree (i : Interval Number) : Prop :=
  ¬ i.lower.IsNaN ∧ ¬ i.upper.IsNaN

/-- The lower bound lies above the upper one. -/
def Reversed (i : Interval Number) : Prop :=
  i.upper.below i.lower = true

instance (i : Interval Number) : Decidable i.Reversed :=
  inferInstanceAs (Decidable (_ = true))

instance (i : Interval Number) (x : Number) : Decidable (i.AboveLower x) :=
  inferInstanceAs (Decidable (_ ∨ _))

instance (i : Interval Number) (x : Number) : Decidable (i.BelowUpper x) :=
  inferInstanceAs (Decidable (_ ∨ _))

instance (i : Interval Number) (x : Number) : Decidable (i.Contains x) :=
  inferInstanceAs (Decidable (_ ∧ _))

instance (i : Interval Number) : Decidable i.NaNFree :=
  inferInstanceAs (Decidable (_ ∧ _))

/-- The same bounds the other way round, each with its flag. -/
def swap (i : Interval Number) : Interval Number :=
  ⟨i.upper, i.lower, i.upperInclusive, i.lowerInclusive⟩

theorem normalize_of_reversed {i : Interval Number} (h : i.Reversed) : i.normalize = i.swap :=
  if_pos h

theorem normalize_of_not_reversed {i : Interval Number} (h : ¬ i.Reversed) : i.normalize = i :=
  if_neg h

/-- What both bounds have in common they have in order as well. -/
theorem normalize_bounds {P : Number → Prop} {i : Interval Number} (h : P i.lower ∧ P i.upper) :
    P i.normalize.lower ∧ P i.normalize.upper := by
  by_cases hr : i.Reversed
  · rw [normalize_of_reversed hr]
    exact h.symm
  · rwa [normalize_of_not_reversed hr]

theorem NaNFree.normalize {i : Interval Number} (h : i.NaNFree) : i.normalize.NaNFree :=
  normalize_bounds (P := fun a => ¬ a.IsNaN) h

section Points

variable {i : Interval Number} {x : Number} {l u p : Point}

theorem aboveLower_iff (hl : i.lower.point? = some l) (hx : x.point? = some p) :
    i.AboveLower x ↔ l < p ∨ i.lowerInclusive = true ∧ l = p := by
  simp only [AboveLower, Number.below_iff_lt hl hx, Number.same_iff_eq hl hx]

theorem belowUpper_iff (hu : i.upper.point? = some u) (hx : x.point? = some p) :
    i.BelowUpper x ↔ p < u ∨ i.upperInclusive = true ∧ p = u := by
  simp only [BelowUpper, Number.below_iff_lt hx hu, Number.same_iff_eq hx hu]

private theorem reversed_iff (hl : i.lower.point? = some l) (hu : i.upper.point? = some u) :
    i.Reversed ↔ u < l :=
  Number.below_iff_lt hu hl

end Points

/-- Only the point of a number decides what contains it. -/
theorem contains_congr {x y : Number} (h : y.point? = x.point?) (i : Interval Number) :
    i.Contains y ↔ i.Contains x := by
  simp only [Contains, AboveLower, BelowUpper, Number.below, Number.same, h]

private theorem not_aboveLower_of_isNaN {i : Interval Number} {x : Number} (h : x.IsNaN) :
    ¬ i.AboveLower x := by
  simp [AboveLower, h.not_below_right, h.not_same_right]

private theorem not_belowUpper_of_isNaN {i : Interval Number} {x : Number} (h : x.IsNaN) :
    ¬ i.BelowUpper x := by
  simp [BelowUpper, h.not_below_left, h.not_same_left]

theorem Contains.not_isNaN {i : Interval Number} {x : Number} (h : i.Contains x) : ¬ x.IsNaN :=
  fun hx => not_aboveLower_of_isNaN hx h.1

theorem Contains.lower_le_upper {i : Interval Number} {x : Number} {l u : Point}
    (h : i.Contains x) (hl : i.lower.point? = some l) (hu : i.upper.point? = some u) : l ≤ u := by
  obtain ⟨p, hx⟩ := Number.exists_point h.not_isNaN
  have hlp : l ≤ p := ((aboveLower_iff hl hx).mp h.1).elim le_of_lt fun h => le_of_eq h.2
  have hpu : p ≤ u := ((belowUpper_iff hu hx).mp h.2).elim le_of_lt fun h => le_of_eq h.2
  exact hlp.trans hpu

theorem Contains.not_reversed {i : Interval Number} {x : Number} (h : i.Contains x)
    (free : i.NaNFree) : ¬ i.Reversed := by
  obtain ⟨l, hl⟩ := Number.exists_point free.1
  obtain ⟨u, hu⟩ := Number.exists_point free.2
  rw [reversed_iff hl hu]
  exact not_lt.mpr (h.lower_le_upper hl hu)

theorem not_contains_of_reversed {i : Interval Number} (free : i.NaNFree) (h : i.Reversed)
    (x : Number) : ¬ i.Contains x :=
  fun hx => hx.not_reversed free h

section NaN

variable {a b : Interval Number}

end NaN

section Meet

variable {a b : Interval Number}

private theorem aboveLower_meet (ha : a.NaNFree) (hb : b.NaNFree) (x : Number) :
    (a.meet b).AboveLower x ↔ a.AboveLower x ∧ b.AboveLower x := by
  obtain ⟨p, hp⟩ := Number.exists_point ha.1
  obtain ⟨q, hq⟩ := Number.exists_point hb.1
  by_cases hx : x.IsNaN
  · simp [not_aboveLower_of_isNaN hx]
  obtain ⟨r, hr⟩ := Number.exists_point hx
  have hab := Number.below_iff_lt hp hq
  have hba := Number.below_iff_lt hq hp
  rw [aboveLower_iff hp hr, aboveLower_iff hq hr]
  rcases lt_trichotomy p q with h | h | h
  · have hm : (a.meet b).lower = b.lower ∧ (a.meet b).lowerInclusive = b.lowerInclusive := by
      simp [meet, Bound.below, hab, hba, h, lt_asymm h]
    rw [aboveLower_iff (hm.1 ▸ hq) hr, hm.2]
    have : q ≤ r → p < r := h.trans_le
    grind
  · subst h
    have hm : (a.meet b).lower = a.lower ∧
        (a.meet b).lowerInclusive = (a.lowerInclusive && b.lowerInclusive) := by
      simp [meet, Bound.below, hab, hba]
    rw [aboveLower_iff (hm.1 ▸ hp) hr, hm.2]
    grind
  · have hm : (a.meet b).lower = a.lower ∧ (a.meet b).lowerInclusive = a.lowerInclusive := by
      simp [meet, Bound.below, hba, h]
    rw [aboveLower_iff (hm.1 ▸ hp) hr, hm.2]
    have : p ≤ r → q < r := h.trans_le
    grind

private theorem belowUpper_meet (ha : a.NaNFree) (hb : b.NaNFree) (x : Number) :
    (a.meet b).BelowUpper x ↔ a.BelowUpper x ∧ b.BelowUpper x := by
  obtain ⟨p, hp⟩ := Number.exists_point ha.2
  obtain ⟨q, hq⟩ := Number.exists_point hb.2
  by_cases hx : x.IsNaN
  · simp [not_belowUpper_of_isNaN hx]
  obtain ⟨r, hr⟩ := Number.exists_point hx
  have hab := Number.below_iff_lt hp hq
  have hba := Number.below_iff_lt hq hp
  rw [belowUpper_iff hp hr, belowUpper_iff hq hr]
  rcases lt_trichotomy p q with h | h | h
  · have hm : (a.meet b).upper = a.upper ∧ (a.meet b).upperInclusive = a.upperInclusive := by
      simp [meet, Bound.below, hab, h]
    rw [belowUpper_iff (hm.1 ▸ hp) hr, hm.2]
    have : r ≤ p → r < q := fun hrp => hrp.trans_lt h
    grind
  · subst h
    have hm : (a.meet b).upper = a.upper ∧
        (a.meet b).upperInclusive = (a.upperInclusive && b.upperInclusive) := by
      simp [meet, Bound.below, hab, hba]
    rw [belowUpper_iff (hm.1 ▸ hp) hr, hm.2]
    grind
  · have hm : (a.meet b).upper = b.upper ∧ (a.meet b).upperInclusive = b.upperInclusive := by
      simp [meet, Bound.below, hab, hba, h, lt_asymm h]
    rw [belowUpper_iff (hm.1 ▸ hq) hr, hm.2]
    have : r ≤ q → r < p := fun hrq => hrq.trans_lt h
    grind

theorem contains_meet (ha : a.NaNFree) (hb : b.NaNFree) (x : Number) :
    (a.meet b).Contains x ↔ a.Contains x ∧ b.Contains x := by
  rw [Contains, aboveLower_meet ha hb, belowUpper_meet ha hb]
  exact and_and_and_comm

private theorem meet_lower_mem (a b : Interval Number) :
    (a.meet b).lower = a.lower ∨ (a.meet b).lower = b.lower := by
  simp only [meet]
  split <;> [skip; split] <;> simp

private theorem meet_upper_mem (a b : Interval Number) :
    (a.meet b).upper = a.upper ∨ (a.meet b).upper = b.upper := by
  simp only [meet]
  split <;> [skip; split] <;> simp

theorem meet_bounds {P : Number → Prop} (ha : P a.lower ∧ P a.upper)
    (hb : P b.lower ∧ P b.upper) : P (a.meet b).lower ∧ P (a.meet b).upper := by
  refine ⟨?_, ?_⟩
  · rcases meet_lower_mem a b with h | h <;> rw [h]
    exacts [ha.1, hb.1]
  · rcases meet_upper_mem a b with h | h <;> rw [h]
    exacts [ha.2, hb.2]

theorem NaNFree.combine (ha : a.NaNFree) (hb : b.NaNFree) : (a.combine b).NaNFree :=
  meet_bounds (P := fun n => ¬ n.IsNaN) ha.normalize hb.normalize

theorem contains_combine (ha : a.NaNFree) (hb : b.NaNFree) (x : Number) :
    (a.combine b).Contains x ↔ a.normalize.Contains x ∧ b.normalize.Contains x :=
  contains_meet ha.normalize hb.normalize x

end Meet

end Interval

end TermRules
