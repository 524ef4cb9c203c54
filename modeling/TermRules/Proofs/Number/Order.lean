import Mathlib.Algebra.Order.Ring.Rat
import Mathlib.Order.WithBot
import TermRules.Number.Basic

/-!
The order of numbers. Points of the extended line are ordered linearly, and the two comparisons of
numbers are the strict order and equality of their points. A NaN has no point and takes part in no
comparison.
-/

namespace TermRules

namespace Point

/-- The point among the rationals with both infinities added. -/
def toExtended : Point → WithBot (WithTop ℚ)
  | .bottom => ⊥
  | .at q => ((q : WithTop ℚ) : WithBot (WithTop ℚ))
  | .top => ((⊤ : WithTop ℚ) : WithBot (WithTop ℚ))

private theorem toExtended_injective : Function.Injective toExtended := by
  intro p q h
  cases p <;> cases q <;> simp_all [toExtended]

instance : LinearOrder Point := LinearOrder.lift' toExtended toExtended_injective

private theorem lt_iff_toExtended (p q : Point) : p < q ↔ p.toExtended < q.toExtended := Iff.rfl

theorem infinite_or_at (p : Point) : (p = .bottom ∨ p = .top) ∨ ∃ q, p = .at q := by
  cases p <;> simp

theorem below_iff_lt (p q : Point) : p.below q = true ↔ p < q := by
  rw [lt_iff_toExtended]
  cases p <;> cases q <;>
    simp [below, toExtended, -WithBot.coe_top, WithBot.coe_lt_coe, WithTop.coe_lt_top]

theorem at_lt_at (p q : ℚ) : Point.at p < Point.at q ↔ p < q := by
  rw [← below_iff_lt]
  simp [below]

theorem at_le_at (p q : ℚ) : Point.at p ≤ Point.at q ↔ p ≤ q := by
  rw [← not_lt, ← not_lt, at_lt_at]

theorem bottom_le (p : Point) : Point.bottom ≤ p := by
  rw [← not_lt, ← below_iff_lt]
  cases p <;> simp [below]

theorem le_top (p : Point) : p ≤ Point.top := by
  rw [← not_lt, ← below_iff_lt]
  cases p <;> simp [below]

end Point

theorem Double.point?_of_toInt? {d : Double} {n : Int} (h : d.toInt? = some n) :
    d.point? = some (.at n) := by
  cases d with
  | nan | infinite negative => simp [toInt?] at h
  | negativeZero =>
      cases h
      rfl
  | finite q =>
      simp only [toInt?] at h
      split at h
      · rename_i hden
        cases h
        rw [point?, Rat.coe_int_num_of_den_eq_one hden]
      · contradiction

namespace Number

def IsNaN (a : Number) : Prop :=
  a.point? = none

instance (a : Number) : Decidable a.IsNaN :=
  inferInstanceAs (Decidable (_ = none))

/-- An integer, or an infinity. -/
def IsWholeBound : Number → Prop
  | .int _ => True
  | .double (.infinite _) => True
  | .double _ => False

theorem exists_point {a : Number} (h : ¬ a.IsNaN) : ∃ p, a.point? = some p :=
  Option.ne_none_iff_exists'.mp h

theorem not_isNaN_of_point {a : Number} {p : Point} (h : a.point? = some p) : ¬ a.IsNaN := by
  simp [IsNaN, h]

theorem IsWholeBound.not_isNaN {a : Number} (h : a.IsWholeBound) : ¬ a.IsNaN := by
  match a, h with
  | .int n, _ => simp [IsNaN, point?]
  | .double (.infinite negative), _ => cases negative <;> simp [IsNaN, point?, Double.point?]

variable {a b : Number} {p q : Point}

theorem below_iff_lt (ha : a.point? = some p) (hb : b.point? = some q) :
    a.below b = true ↔ p < q := by
  simp only [below, ha, hb, Point.below_iff_lt]

theorem same_iff_eq (ha : a.point? = some p) (hb : b.point? = some q) :
    a.same b = true ↔ p = q := by
  simp only [same, ha, hb, decide_eq_true_eq]

theorem IsNaN.not_below_left (h : a.IsNaN) (b : Number) : a.below b = false := by
  unfold below
  rw [h]

theorem IsNaN.not_below_right (h : b.IsNaN) (a : Number) : a.below b = false := by
  unfold below
  rw [h]
  cases a.point? <;> rfl

theorem IsNaN.not_same_left (h : a.IsNaN) (b : Number) : a.same b = false := by
  unfold same
  rw [h]

theorem IsNaN.not_same_right (h : b.IsNaN) (a : Number) : a.same b = false := by
  unfold same
  rw [h]
  cases a.point? <;> rfl

theorem isInfinite?_eq_some_true_iff (ha : a.point? = some p) :
    a.isInfinite? = some true ↔ p = .bottom ∨ p = .top := by
  match a with
  | .int n =>
      simp only [point?, Option.some.injEq] at ha
      subst ha
      simp only [isInfinite?]
      split <;> simp
  | .double .nan => simp [point?, Double.point?] at ha
  | .double .negativeZero | .double (.finite _) =>
      simp only [point?, Double.point?, Option.some.injEq] at ha
      subst ha
      simp [isInfinite?]
  | .double (.infinite negative) =>
      cases negative <;> simp only [point?, Double.point?, Option.some.injEq] at ha <;>
        subst ha <;> simp [isInfinite?]

end Number

end TermRules
