import TermRules.Proofs.Number.Writable

/-!
What the count of decimal places says. Stripping zeros leaves the one form of a decimal with the
fewest digits and the largest exponent, and so the count is the least power of ten that makes the
number whole: for every decimal that rounding to the digits kept leaves as it is, and for every
whole number, which it may change but leaves whole.
-/

namespace TermRules

/-- A rational without a fraction. -/
def IsWhole (q : ℚ) : Prop :=
  ∃ n : ℤ, q = n

theorem isWhole_neg_iff {q : ℚ} : IsWhole (-q) ↔ IsWhole q := by
  constructor
  · rintro ⟨n, hn⟩
    exact ⟨-n, by rw [Int.cast_neg, ← hn, neg_neg]⟩
  · rintro ⟨n, rfl⟩
    exact ⟨-n, (Int.cast_neg n).symm⟩

namespace Decimal

variable {d e : Decimal} {k : ℕ}

/-- How many digits a decimal is written with. -/
def size (d : Decimal) : ℕ :=
  (Nat.toDigits 10 d.digits).length

theorem size_pos (d : Decimal) : 0 < d.size :=
  Nat.length_toDigits_pos

theorem size_le_iff (hk : 0 < k) : d.size ≤ k ↔ d.digits < 10 ^ k :=
  Nat.length_toDigits_le_iff (by decide) hk

private theorem size_le_of_digits_le (h : d.digits ≤ e.digits) : d.size ≤ e.size :=
  (size_le_iff e.size_pos).mpr (h.trans_lt (lt_pow_length_toDigits e.digits))

theorem value_nonneg (d : Decimal) : 0 ≤ d.value := by
  rw [value_eq]
  positivity

theorem value_pos (h : d.digits ≠ 0) : 0 < d.value := by
  have hpos : (0 : ℚ) < d.digits := by exact_mod_cast Nat.pos_of_ne_zero h
  rw [value_eq]
  positivity

theorem value_lt (d : Decimal) : d.value < 10 ^ (d.size + d.exponent) := by
  have hdigits : (d.digits : ℚ) < 10 ^ d.size := by exact_mod_cast lt_pow_length_toDigits d.digits
  rw [value_eq, zpow_add₀ (by norm_num), zpow_natCast]
  gcongr

theorem le_value (h : d.digits ≠ 0) : 10 ^ (d.size - 1 + d.exponent) ≤ d.value := by
  have hdigits : (10 : ℚ) ^ (d.size - 1) ≤ d.digits := by exact_mod_cast pow_length_toDigits_le h
  have hcast : ((d.size : ℤ) - 1) = ((d.size - 1 : ℕ) : ℤ) := by
    have := d.size_pos
    omega
  rw [value_eq, zpow_add₀ (by norm_num), hcast, zpow_natCast]
  gcongr

/-- In a coarser form of a decimal the digits are fewer by zeros. -/
theorem digits_eq_of_value_eq (hvalue : e.value = d.value) (hle : e.exponent ≤ d.exponent) :
    e.digits = d.digits * 10 ^ (d.exponent - e.exponent).toNat := by
  have hstep : (10 : ℚ) ^ e.exponent ≠ 0 := by positivity
  have hshift : (10 : ℚ) ^ d.exponent =
      ((10 ^ (d.exponent - e.exponent).toNat : ℕ) : ℚ) * 10 ^ e.exponent := by
    rw [cast_pow_toNat 10 (Int.sub_nonneg.mpr hle), Nat.cast_ofNat, ← zpow_add₀ (by norm_num),
      sub_add_cancel]
  rw [value_eq, value_eq, hshift, ← mul_assoc] at hvalue
  exact_mod_cast mul_right_cancel₀ hstep hvalue

private theorem exponent_le_of_value_eq (hd : ¬ 10 ∣ d.digits) (hvalue : e.value = d.value) :
    e.exponent ≤ d.exponent := by
  by_contra hlt
  rw [not_le] at hlt
  have hdigits := digits_eq_of_value_eq hvalue.symm hlt.le
  obtain ⟨k, hk⟩ : ∃ k, (e.exponent - d.exponent).toNat = k + 1 :=
    ⟨(e.exponent - d.exponent).toNat - 1, by omega⟩
  rw [hk, pow_succ, ← mul_assoc] at hdigits
  exact hd (hdigits ▸ Nat.dvd_mul_left 10 _)

private theorem stripUpTo_not_dvd {fuel : ℕ} (hd : d.digits ≠ 0) (hfuel : d.digits < 10 ^ fuel) :
    ¬ 10 ∣ (stripUpTo fuel d).digits := by
  induction fuel generalizing d with
  | zero => omega
  | succ fuel ih =>
      rw [stripUpTo]
      split
      · rw [pow_succ] at hfuel
        exact ih (by dsimp only; omega) (by dsimp only; omega)
      · omega

private theorem strip_not_dvd (hd : d.digits ≠ 0) : ¬ 10 ∣ d.strip.digits := by
  rw [strip, if_neg hd]
  exact stripUpTo_not_dvd hd (lt_pow_length_toDigits d.digits)

theorem strip_size_le (hd : d.digits ≠ 0) (hvalue : e.value = d.value) : d.strip.size ≤ e.size := by
  rw [← strip_value d] at hvalue
  have hdigits := digits_eq_of_value_eq hvalue (exponent_le_of_value_eq (strip_not_dvd hd) hvalue)
  refine size_le_of_digits_le ?_
  rw [hdigits]
  exact Nat.le_mul_of_pos_right _ (by positivity)

private theorem isWhole_mul_iff (hd : ¬ 10 ∣ d.digits) :
    IsWhole (d.value * 10 ^ k) ↔ -(k : ℤ) ≤ d.exponent := by
  have hpow : (10 : ℚ) ^ k ≠ 0 := by positivity
  constructor
  · rintro ⟨n, hn⟩
    have hnonneg : 0 ≤ n := by
      have : (0 : ℚ) ≤ n := hn ▸ mul_nonneg d.value_nonneg (by positivity)
      exact_mod_cast this
    have hvalue : (⟨n.toNat, -k⟩ : Decimal).value = d.value := by
      have hcast : ((n.toNat : ℕ) : ℚ) = n := by exact_mod_cast Int.toNat_of_nonneg hnonneg
      rw [value_eq, hcast, ← hn, zpow_neg, zpow_natCast, mul_inv_cancel_right₀ hpow]
    exact exponent_le_of_value_eq hd hvalue
  · intro hle
    refine ⟨d.digits * 10 ^ (d.exponent + k).toNat, ?_⟩
    rw [value_eq, mul_assoc, ← zpow_natCast, ← zpow_add₀ (by norm_num)]
    push_cast
    rw [← zpow_natCast, Int.toNat_of_nonneg (by omega)]

/-- Rounding leaves the decimal as it is, or it is whole, which rounding leaves it. -/
def KeepsPlaces (d : Decimal) : Prop :=
  0 ≤ d.exponent ∨ (d.size ≤ precision ∧ finest ≤ d.exponent)

private theorem rounded_eq_self (hsize : d.size ≤ precision) (hfinest : finest ≤ d.exponent) :
    d.rounded = d := by
  simp only [size] at hsize
  simp only [rounded]
  rw [if_pos (by omega)]

/-- The count of places is the least power of ten that makes the number whole. -/
theorem places?_le_iff {n : ℕ} (h : d.places? = some n) (hkeeps : d.KeepsPlaces) (k : ℕ) :
    n ≤ k ↔ IsWhole (d.value * 10 ^ k) := by
  rw [places?] at h
  by_cases hzero : d.digits = 0
  · rw [if_pos hzero] at h
    obtain rfl := Option.some.inj h
    refine iff_of_true (Nat.zero_le k) ⟨0, ?_⟩
    rw [value_eq, hzero]
    simp
  · rw [if_neg hzero] at h
    split at h
    · contradiction
    · obtain rfl := Option.some.inj h
      rcases hkeeps with hwhole | ⟨hsize, hfinest⟩
      · have hrounded := strip_exponent_nonneg (rounded_exponent_nonneg hwhole)
        refine iff_of_true (by omega) ?_
        have hstrip := strip_exponent_nonneg hwhole
        rw [← strip_value, isWhole_mul_iff (strip_not_dvd hzero)]
        omega
      · rw [rounded_eq_self hsize hfinest, ← strip_value, isWhole_mul_iff (strip_not_dvd hzero)]
        omega

/-- Forms of one decimal have their first digit at the same place. -/
theorem size_add_exponent_le_of_value_eq (hd : d.digits ≠ 0) (hvalue : d.value = e.value) :
    d.size + d.exponent ≤ e.size + e.exponent := by
  have hlt : (10 : ℚ) ^ ((d.size : ℤ) - 1 + d.exponent) < 10 ^ (e.size + e.exponent) :=
    (d.le_value hd).trans_lt (hvalue ▸ e.value_lt)
  have := (zpow_lt_zpow_iff_right₀ (by norm_num)).mp hlt
  omega

theorem value_eq_zero_iff : d.value = 0 ↔ d.digits = 0 := by
  constructor
  · intro hvalue
    by_contra hdigits
    exact (value_pos hdigits).ne' hvalue
  · intro hdigits
    rw [value_eq, hdigits, Nat.cast_zero, zero_mul]

private theorem places?_eq_none_iff :
    d.places? = none ↔ d.digits ≠ 0 ∧ largest < (d.size : ℤ) - 1 + d.exponent := by
  rw [places?, size]
  split
  · simp_all
  · split <;> simp_all

private theorem places?_eq_none_of_value_eq (h : d.places? = none) (hvalue : d.value = e.value) :
    e.places? = none := by
  obtain ⟨hdigits, hlargest⟩ := places?_eq_none_iff.mp h
  have hsize := size_add_exponent_le_of_value_eq hdigits hvalue
  refine places?_eq_none_iff.mpr ⟨?_, by omega⟩
  rwa [Ne, ← value_eq_zero_iff, ← hvalue, value_eq_zero_iff]

/-- The count belongs to the number and not to the form. -/
theorem places?_congr (hd : d.KeepsPlaces) (he : e.KeepsPlaces) (hvalue : d.value = e.value) :
    d.places? = e.places? := by
  cases hn : d.places? with
  | none => exact (places?_eq_none_of_value_eq hn hvalue).symm
  | some n =>
      cases hm : e.places? with
      | none =>
          rw [places?_eq_none_of_value_eq hm hvalue.symm] at hn
          contradiction
      | some m =>
          have hiff (k : ℕ) : n ≤ k ↔ m ≤ k := by
            rw [places?_le_iff hn hd, places?_le_iff hm he, hvalue]
          rw [le_antisymm ((hiff m).mpr le_rfl) ((hiff n).mp le_rfl)]

end Decimal

end TermRules
