import Mathlib.Algebra.Order.Field.Power
import Mathlib.Data.Rat.Cast.Order
import Mathlib.Tactic.Positivity
import Mathlib.Tactic.Ring
import TermRules.Number.Places

/-!
How large the doubles are that rounding makes, and why that matters: a whole number of that size has
few enough digits to be written out, and no decimal places. How near to its argument rounding stays
is not settled here.
-/

namespace TermRules

section Base

variable {b : ℕ} {e : ℤ}

theorem cast_pow_toNat (b : ℕ) (h : 0 ≤ e) : ((b ^ e.toNat : ℕ) : ℚ) = (b : ℚ) ^ e := by
  rw [Nat.cast_pow, ← zpow_natCast, Int.toNat_of_nonneg h]

theorem cast_pow_toNat_neg (b : ℕ) (h : e < 0) : ((b ^ (-e).toNat : ℕ) : ℚ) = ((b : ℚ) ^ e)⁻¹ := by
  rw [cast_pow_toNat b (by omega), zpow_neg]

theorem scaled_lt_iff {n d : ℕ} (hb : 0 < b) :
    (if 0 ≤ e then n < d * Nat.pow b e.toNat else n * Nat.pow b (-e).toNat < d) ↔
      (n : ℚ) < d * (b : ℚ) ^ e := by
  have hpos : (0 : ℚ) < (b : ℚ) ^ e := by positivity
  split
  · rename_i he
    rw [← cast_pow_toNat b he]
    exact_mod_cast Iff.rfl
  · rename_i he
    rw [← div_lt_iff₀ hpos, div_eq_mul_inv, ← cast_pow_toNat_neg b (not_le.mp he)]
    exact_mod_cast Iff.rfl

theorem scaled_eq (b m : ℕ) (e : ℤ) :
    (if 0 ≤ e then ((m * Nat.pow b e.toNat : ℕ) : ℚ) else mkRat m (Nat.pow b (-e).toNat)) =
      m * (b : ℚ) ^ e := by
  split
  · rename_i he
    rw [← cast_pow_toNat b he, ← Nat.cast_mul]
    rfl
  · rename_i he
    have hpow : ((Nat.pow b (-e).toNat : ℕ) : ℚ) = ((b : ℚ) ^ e)⁻¹ :=
      cast_pow_toNat_neg b (not_le.mp he)
    rw [Rat.mkRat_eq_div, hpow, div_inv_eq_mul, Int.cast_natCast]

end Base

theorem cast_two_pow_toNat {e : ℤ} (h : 0 ≤ e) : ((2 ^ e.toNat : ℕ) : ℚ) = 2 ^ e :=
  cast_pow_toNat 2 h

theorem cast_two_pow_toNat_neg {e : ℤ} (h : e < 0) : ((2 ^ (-e).toNat : ℕ) : ℚ) = (2 ^ e)⁻¹ :=
  cast_pow_toNat_neg 2 h

/-- The magnitude is large enough: the number lies below the next power of two. -/
theorem lt_two_zpow_binaryMagnitude {n d : ℕ} (hd : 0 < d) :
    (n : ℚ) < d * 2 ^ (binaryMagnitude n d + 1) := by
  rw [binaryMagnitude]
  generalize hk : (n.log2 : ℤ) - d.log2 = k
  by_cases hbelow : (n : ℚ) < d * 2 ^ k
  · rwa [if_pos ((scaled_lt_iff two_pos).mpr hbelow), sub_add_cancel]
  · rw [if_neg (mt (scaled_lt_iff two_pos).mp hbelow)]
    have hn : (n : ℚ) < 2 ^ (n.log2 + 1) := by exact_mod_cast Nat.lt_log2_self
    have hlog : (2 : ℚ) ^ d.log2 ≤ d := by exact_mod_cast Nat.log2_self_le hd.ne'
    calc (n : ℚ) < 2 ^ (n.log2 + 1) := hn
      _ = 2 ^ d.log2 * 2 ^ (k + 1) := by
          rw [← zpow_natCast, ← zpow_natCast, ← zpow_add₀ two_ne_zero]
          congr 1
          push_cast
          omega
      _ ≤ d * 2 ^ (k + 1) := by gcongr

private theorem nearestEven_le (n d : ℕ) : nearestEven n d ≤ n / d + 1 := by
  simp only [nearestEven]
  split
  · omega
  · split <;> omega

theorem gridSteps_le {n d : ℕ} (hd : 0 < d) : gridSteps n d (gridExponent n d) ≤ 2 ^ 53 := by
  have hlt := lt_two_zpow_binaryMagnitude (n := n) hd
  have hle : binaryMagnitude n d + 1 ≤ gridExponent n d + 53 := by
    rw [gridExponent]
    omega
  generalize gridExponent n d = e at hle
  have hbound : (n : ℚ) < d * 2 ^ e * 2 ^ 53 := by
    calc (n : ℚ) < d * 2 ^ (binaryMagnitude n d + 1) := hlt
      _ ≤ d * 2 ^ (e + 53) := by
          gcongr
          norm_num
      _ = d * 2 ^ e * 2 ^ 53 := by
          rw [zpow_add₀ two_ne_zero, mul_assoc]
          norm_cast
  rw [gridSteps]
  split
  · rename_i he
    have hnat : n < d * 2 ^ e.toNat * 2 ^ 53 := by
      rw [← cast_two_pow_toNat he] at hbound
      exact_mod_cast hbound
    have hdiv := Nat.div_lt_of_lt_mul hnat
    exact (nearestEven_le _ _).trans hdiv
  · rename_i he
    have hnat : n * 2 ^ (-e).toNat < d * 2 ^ 53 := by
      have hpos : (0 : ℚ) < 2 ^ e := by positivity
      have hscaled : (n : ℚ) * (2 ^ e)⁻¹ < d * 2 ^ 53 := by
        rw [← div_eq_mul_inv, div_lt_iff₀ hpos, mul_right_comm]
        exact hbound
      rw [← cast_two_pow_toNat_neg (not_le.mp he)] at hscaled
      exact_mod_cast hscaled
    have hdiv := Nat.div_lt_of_lt_mul hnat
    exact (nearestEven_le _ _).trans hdiv

theorem dyadic_eq (m : ℕ) (e : ℤ) : dyadic m e = m * 2 ^ e :=
  scaled_eq 2 m e

private theorem dyadic_lt {m : ℕ} {e : ℤ} (hm : m ≤ 2 ^ 53)
    (h : ¬ (971 < e ∨ e = 971 ∧ Nat.pow 2 53 ≤ m)) : dyadic m e < 2 ^ (1024 : ℤ) := by
  have hpos (k : ℤ) : (0 : ℚ) < 2 ^ k := by positivity
  have hsum : (2 : ℚ) ^ (53 : ℤ) * 2 ^ (971 : ℤ) = 2 ^ (1024 : ℤ) := by
    rw [← zpow_add₀ two_ne_zero]
    rfl
  rw [dyadic_eq, ← hsum]
  rw [not_or, not_and, not_lt] at h
  rcases h.1.lt_or_eq with he | he
  · have hle : (m : ℚ) ≤ 2 ^ (53 : ℤ) := by exact_mod_cast hm
    calc (m : ℚ) * 2 ^ e ≤ 2 ^ (53 : ℤ) * 2 ^ e := by gcongr
      _ < 2 ^ (53 : ℤ) * 2 ^ (971 : ℤ) := by
          gcongr
          norm_num
  · have hlt : (m : ℚ) < 2 ^ (53 : ℤ) := by exact_mod_cast not_le.mp (h.2 he)
    rw [he]
    gcongr

/-- A finite double is a zero or, up to its sign, on the grid below the infinite ones. -/
theorem round_eq_finite {p q : ℚ} (h : Double.round p = .finite q) :
    q = 0 ∨ ∃ m e, m ≤ 2 ^ 53 ∧ ¬ (971 < e ∨ e = 971 ∧ Nat.pow 2 53 ≤ m) ∧
      (q = dyadic m e ∨ q = -dyadic m e) := by
  rw [Double.round] at h
  split at h
  · cases h
    exact .inl rfl
  · dsimp only at h
    split at h
    · contradiction
    rename_i hfinite
    split at h
    · split at h
      · contradiction
      · cases h
        exact .inl rfl
    · refine .inr ⟨_, _, gridSteps_le p.den_pos, hfinite, ?_⟩
      cases h
      split
      · exact .inr rfl
      · exact .inl rfl

theorem abs_lt_of_round_eq_finite {p q : ℚ} (h : Double.round p = .finite q) :
    |q| < 2 ^ (1024 : ℤ) := by
  rcases round_eq_finite h with hq | ⟨m, e, hm, hfinite, hq⟩
  · rw [hq, abs_zero]
    positivity
  · have hnonneg : 0 ≤ dyadic m e := by
      rw [dyadic_eq]
      positivity
    have habs : |q| = dyadic m e := by
      rcases hq with rfl | rfl
      · exact abs_of_nonneg hnonneg
      · rw [abs_neg, abs_of_nonneg hnonneg]
    rw [habs]
    exact dyadic_lt hm hfinite

namespace Decimal

variable {d : Decimal}

private theorem stripUpTo_exponent_nonneg (fuel : ℕ) (h : 0 ≤ d.exponent) :
    0 ≤ (stripUpTo fuel d).exponent := by
  induction fuel generalizing d with
  | zero => exact h
  | succ fuel ih =>
      rw [stripUpTo]
      split
      · exact ih (Int.add_nonneg h (by decide))
      · exact h

theorem strip_exponent_nonneg (h : 0 ≤ d.exponent) : 0 ≤ d.strip.exponent := by
  rw [strip]
  split
  · exact le_rfl
  · exact stripUpTo_exponent_nonneg _ h

theorem rounded_exponent_nonneg (h : 0 ≤ d.exponent) : 0 ≤ d.rounded.exponent := by
  simp only [rounded]
  split
  · exact h
  · split
    · exact le_rfl
    · simp only
      omega

end Decimal

private theorem length_toDigits_le {n : ℤ} {k : ℕ} (hk : 0 < k) (h : |(n : ℚ)| < 2 ^ (k : ℤ)) :
    (Nat.toDigits 10 n.natAbs).length ≤ k := by
  have hlt : n.natAbs < 2 ^ k := by
    rw [zpow_natCast, ← Int.cast_abs, Int.abs_eq_natAbs] at h
    exact_mod_cast h
  rw [Nat.length_toDigits_le_iff (by decide) hk]
  exact hlt.trans_le (Nat.pow_le_pow_left (by decide) k)

/-- A whole number no larger than doubles can be written out, without decimal places. -/
theorem Number.places?_int {n : ℤ} (h : |(n : ℚ)| < 2 ^ (1024 : ℤ)) :
    (Number.int n).places? = some 0 := by
  have hlength := length_toDigits_le (k := 1024) (by decide) h
  have hexponent : 0 ≤ (Decimal.mk n.natAbs 0).rounded.strip.exponent :=
    Decimal.strip_exponent_nonneg (Decimal.rounded_exponent_nonneg le_rfl)
  have hlargest : ¬ Decimal.largest < (Nat.toDigits 10 n.natAbs).length - 1 + 0 := by
    rw [Decimal.largest]
    omega
  rw [Number.places?, Decimal.places?]
  split
  · rfl
  · rw [Option.some.injEq]
    omega

namespace Double

/-- A double that rounding makes of some number, or one that is not finite. -/
def OnGrid (d : Double) : Prop :=
  ∀ q, d = .finite q → ∃ p, round p = .finite q

private theorem onGrid_zero : OnGrid (.finite 0) := by
  intro q hq
  cases hq
  exact ⟨0, rfl⟩

theorem onGrid_round (p : ℚ) : OnGrid (round p) :=
  fun _ hq => ⟨p, hq⟩

private theorem onGrid_ofDecimal (negative : Bool) (digits : ℕ) (exponent : ℤ) :
    OnGrid (ofDecimal negative digits exponent) := by
  have hzero : OnGrid (if negative then .negativeZero else .finite 0) := by
    cases negative
    · exact onGrid_zero
    · exact nofun
  rw [ofDecimal]
  split
  · exact hzero
  · dsimp only
    split
    · exact nofun
    · split
      · exact hzero
      · exact onGrid_round _

/-- The whole number that a double on the grid equals is no larger than doubles. -/
theorem OnGrid.abs_toInt?_lt {d : Double} (h : d.OnGrid) {n : ℤ} (hn : d.toInt? = some n) :
    |(n : ℚ)| < 2 ^ (1024 : ℤ) := by
  cases d with
  | nan | infinite negative => simp [toInt?] at hn
  | negativeZero =>
      cases hn
      rw [Int.cast_zero, abs_zero]
      positivity
  | finite q =>
      obtain ⟨p, hp⟩ := h q rfl
      simp only [toInt?] at hn
      split at hn
      · rename_i hden
        cases hn
        rw [Rat.coe_int_num_of_den_eq_one hden]
        exact abs_lt_of_round_eq_finite hp
      · contradiction

end Double

theorem Reading.onGrid_of_number? {s : String} {d : Double}
    (h : Reading.number? s = some (.double d)) : d.OnGrid := by
  simp only [number?] at h
  split at h
  · split at h <;> simp at h
  · obtain ⟨joined, -, hd⟩ := Option.bind_eq_some_iff.mp h
    obtain ⟨e, he, hed⟩ := Option.map_eq_some_iff.mp hd
    cases hed
    simp only [double?] at he
    split at he
    · cases he
      exact nofun
    · cases he
      exact nofun
    · cases he
      exact nofun
    · obtain ⟨decimal, -, rfl⟩ := Option.map_eq_some_iff.mp he
      exact Double.onGrid_ofDecimal _ _ _

end TermRules
