import TermRules.Interval.Loose
import TermRules.Proofs.Rule.Bounds

/-!
Combining two intervals as their intersection. The ends of the result are the tighter ones of both,
and at a tie an end belongs to the result if it belongs to both sides, so that the order of the two
makes no difference to the result beyond the form its bounds are written in.
-/

namespace TermRules

namespace Interval

/-- Numerically equal bounds and equal flags. -/
structure Alike (a b : Interval Number) : Prop where
  lower : a.lower.same b.lower = true
  upper : a.upper.same b.upper = true
  lowerInclusive : a.lowerInclusive = b.lowerInclusive
  upperInclusive : a.upperInclusive = b.upperInclusive

section Ends

variable {a b : Interval Number} {p q : Point}

theorem meet_lower_point (ha : a.lower.point? = some p) (hb : b.lower.point? = some q) :
    (a.meet b).lower.point? = some (max p q) := by
  have hab := Number.below_iff_lt ha hb
  have hba := Number.below_iff_lt hb ha
  rcases lt_trichotomy p q with h | rfl | h
  · simp [meet, Bound.below, hab, hba, h, lt_asymm h, hb, max_eq_right h.le]
  · simp [meet, Bound.below, hab, hba, ha]
  · simp [meet, Bound.below, hba, h, ha, max_eq_left h.le]

theorem meet_upper_point (ha : a.upper.point? = some p) (hb : b.upper.point? = some q) :
    (a.meet b).upper.point? = some (min p q) := by
  have hab := Number.below_iff_lt ha hb
  have hba := Number.below_iff_lt hb ha
  rcases lt_trichotomy p q with h | rfl | h
  · simp [meet, Bound.below, hab, h, ha, min_eq_left h.le]
  · simp [meet, Bound.below, hab, hba, ha]
  · simp [meet, Bound.below, hab, hba, h, lt_asymm h, hb, min_eq_right h.le]

/-- An end belongs to the result if it belongs to each interval that it is the tighter end of. -/
theorem meet_lowerInclusive_iff (ha : a.lower.point? = some p) (hb : b.lower.point? = some q) :
    (a.meet b).lowerInclusive = true ↔
      (q ≤ p → a.lowerInclusive = true) ∧ (p ≤ q → b.lowerInclusive = true) := by
  have hab := Number.below_iff_lt ha hb
  have hba := Number.below_iff_lt hb ha
  rcases lt_trichotomy p q with h | rfl | h
  · simp [meet, Bound.below, hab, hba, h, lt_asymm h, h.le, not_le.mpr h]
  · simp [meet, Bound.below, hab, hba]
  · simp [meet, Bound.below, hba, h, h.le, not_le.mpr h]

theorem meet_upperInclusive_iff (ha : a.upper.point? = some p) (hb : b.upper.point? = some q) :
    (a.meet b).upperInclusive = true ↔
      (p ≤ q → a.upperInclusive = true) ∧ (q ≤ p → b.upperInclusive = true) := by
  have hab := Number.below_iff_lt ha hb
  have hba := Number.below_iff_lt hb ha
  rcases lt_trichotomy p q with h | rfl | h
  · simp [meet, Bound.below, hab, h, h.le, not_le.mpr h]
  · simp [meet, Bound.below, hab, hba]
  · simp [meet, Bound.below, hab, hba, h, lt_asymm h, h.le, not_le.mpr h]

private theorem meet_alike_comm (ha : a.NaNFree) (hb : b.NaNFree) :
    (a.meet b).Alike (b.meet a) := by
  obtain ⟨p, hp⟩ := Number.exists_point ha.1
  obtain ⟨q, hq⟩ := Number.exists_point hb.1
  obtain ⟨p', hp'⟩ := Number.exists_point ha.2
  obtain ⟨q', hq'⟩ := Number.exists_point hb.2
  constructor
  · rw [Number.same_iff_eq (meet_lower_point hp hq) (meet_lower_point hq hp), max_comm]
  · rw [Number.same_iff_eq (meet_upper_point hp' hq') (meet_upper_point hq' hp'), min_comm]
  · rw [Bool.eq_iff_iff, meet_lowerInclusive_iff hp hq, meet_lowerInclusive_iff hq hp, and_comm]
  · rw [Bool.eq_iff_iff, meet_upperInclusive_iff hp' hq', meet_upperInclusive_iff hq' hp', and_comm]

end Ends

section Loose

/-- The interval with its bounds as plain values. -/
def loose (i : Interval Number) : Interval Value :=
  ⟨.ofNumber i.lower, .ofNumber i.upper, i.lowerInclusive, i.upperInclusive⟩

variable {a b : Interval Number}

private theorem number?_ofNumber (x : Number) : (Value.ofNumber x).number? = some x := by
  cases x <;> rfl

private theorem below_ofNumber (x y : Number) :
    ((Value.ofNumber x).below? (.ofNumber y)).getD false = x.below y := by
  rw [Value.below?_ofNumber (number?_ofNumber x) y, Option.getD_some]

private theorem requireOrder_ofNumber (x y : Number) :
    requireOrder (.ofNumber x) (.ofNumber y) = .ok () := by
  rw [requireOrder, Value.below?_ofNumber (number?_ofNumber x) y]
  rfl

private theorem normalize_loose (a : Interval Number) : a.loose.normalize = a.normalize.loose := by
  simp only [normalize, loose, Bound.below, below_ofNumber]
  split <;> rfl

private theorem meet_loose (a b : Interval Number) : a.loose.meet b.loose = (a.meet b).loose := by
  simp only [meet, loose, Bound.below, below_ofNumber]
  congr 1
  · split <;> [rfl; split <;> rfl]
  · split <;> [rfl; split <;> rfl]
  · split <;> [rfl; split <;> rfl]
  · split <;> [rfl; split <;> rfl]

private theorem normalizeLoose_of_numbers {v : Value} (hv : ofFour v = .ok a.loose) :
    normalizeLoose v = .ok a.normalize.loose := by
  have horder := requireOrder_ofNumber a.lower a.upper
  rw [normalizeLoose, hv, ← normalize_loose]
  exact congrArg (· >>= fun _ => Except.ok a.loose.normalize) horder

private theorem combineLoose_of_numbers {v w : Value} (hv : ofFour v = .ok a.loose)
    (hw : ofFour w = .ok b.loose) : combineLoose v w = .ok (a.combine b).loose := by
  have hnull : w.isNull = false := by
    match w with
    | .null => contradiction
    | .bool _ | .int _ | .double _ | .text _ | .list _ | .mapping _ => rfl
  have hlower := requireOrder_ofNumber a.normalize.lower b.normalize.lower
  have hupper := requireOrder_ofNumber a.normalize.upper b.normalize.upper
  simp only [combineLoose, normalizeLoose_of_numbers hv, normalizeLoose_of_numbers hw, hnull, bind,
    Except.bind, meetLoose, combine, ← meet_loose]
  simp only [loose] at hlower hupper ⊢
  simp [hlower, hupper, pure, Except.pure]

end Loose

/-- Combining is exact intersection, whichever way round bounds are given: disjoint intervals leave
one without members, and the order of the two does not matter. The same holds of intervals given as
plain values, whose flags count by being truthy. -/
theorem combine_is_intersection {a b : Interval Number} (ha : a.NaNFree) (hb : b.NaNFree) :
    (∀ x, (a.combine b).Contains x ↔ a.normalize.Contains x ∧ b.normalize.Contains x) ∧
      ((¬ ∃ x, a.normalize.Contains x ∧ b.normalize.Contains x) →
        ∀ x, ¬ (a.combine b).Contains x) ∧
      (a.combine b).Alike (b.combine a) ∧
      ∀ v w, ofFour v = .ok a.loose → ofFour w = .ok b.loose →
        combineLoose v w = .ok (a.combine b).loose := by
  refine ⟨contains_combine ha hb, fun hdisjoint x hx => ?_, ?_, fun v w => combineLoose_of_numbers⟩
  · exact hdisjoint ⟨x, (contains_combine ha hb x).mp hx⟩
  · exact meet_alike_comm ha.normalize hb.normalize

/-- The numbers above two up to ten, written from the upper end. -/
def aboveTwo : Interval Number :=
  ⟨.int 10, .double (.finite 2), true, false⟩

/-- The numbers from two on. -/
def fromTwo : Interval Number :=
  ⟨.int 2, .double (.infinite false), true, true⟩

theorem combine_is_intersection_of_tie :
    ¬ (aboveTwo.combine fromTwo).Contains (.int 2) ∧
      (aboveTwo.combine fromTwo).Alike (fromTwo.combine aboveTwo) ∧
      combineLoose (.list [.int 10, .double (.finite 2), .int 1, .null])
          (.list [.int 2, .double (.infinite false), .bool true, .text "closed"]) =
        .ok ⟨.double (.finite 2), .int 10, false, true⟩ := by
  have habove : aboveTwo.NaNFree := by decide
  have hfrom : fromTwo.NaNFree := by decide
  obtain ⟨hcontains, -, halike, hloose⟩ := combine_is_intersection habove hfrom
  refine ⟨fun h => ?_, halike, ?_⟩
  · have hlower := ((hcontains _).mp h).1.1
    revert hlower
    decide
  · have hcombine :
      aboveTwo.combine fromTwo = ⟨.double (.finite 2), .int 10, false, true⟩ := by decide
    rw [hloose _ _ rfl rfl, hcombine]
    rfl

end Interval

end TermRules
