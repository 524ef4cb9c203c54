import Mathlib.Tactic.Linarith
import TermRules.Proofs.Number.Magnitude
import TermRules.Proofs.Number.Order

/-!
Rounding never moves a number past a double. A double on one side of a number is on the same side of
what the number is rounded to, and no number short of the halfway point above the largest double is
rounded to an infinity. Which of its two neighbours a number is rounded to is not settled here.
-/

namespace TermRules

section Steps

variable {n d k : ℕ} {e : ℤ}

private theorem le_nearestEven (hd : 0 < d) (h : k * d ≤ n) : k ≤ nearestEven n d := by
  have hk : k ≤ n / d := (Nat.le_div_iff_mul_le hd).mpr h
  simp only [nearestEven]
  split
  · exact hk
  · split <;> omega

private theorem nearestEven_le_of_le (hd : 0 < d) (h : n ≤ k * d) : nearestEven n d ≤ k := by
  simp only [nearestEven]
  by_cases hr : n % d = 0
  · rw [if_pos (by omega)]
    exact Nat.div_le_of_le_mul (by rwa [mul_comm] at h)
  · have hne : n ≠ k * d := fun heq => hr (heq ▸ Nat.mul_mod_left k d)
    have hlt : n / d < k := (Nat.div_lt_iff_lt_mul hd).mpr (lt_of_le_of_ne h hne)
    split
    · exact hlt.le
    · split <;> omega

/-- Below the half in front of `k` steps, fewer are taken. -/
theorem nearestEven_lt (h : 2 * n < (2 * k - 1) * d) : nearestEven n d < k := by
  have hn : d * (n / d) + n % d = n := Nat.div_add_mod n d
  simp only [nearestEven]
  generalize n / d = q at hn ⊢
  generalize n % d = r at hn ⊢
  subst hn
  have hmul (j : ℕ) (hj : j * d ≤ 2 * (d * q + r)) : j < 2 * k - 1 :=
    lt_of_mul_lt_mul_right (hj.trans_lt h) (Nat.zero_le d)
  split
  · have := hmul (2 * q) (by ring_nf; omega)
    omega
  · have := hmul (2 * q + 1) (by ring_nf; omega)
    split <;> omega

theorem le_gridSteps (hd : 0 < d) (h : (k : ℚ) * 2 ^ e * d ≤ n) : k ≤ gridSteps n d e := by
  rw [gridSteps]
  split
  · rename_i he
    refine le_nearestEven (Nat.mul_pos hd (Nat.two_pow_pos _)) ?_
    rw [← cast_two_pow_toNat he, mul_right_comm, mul_assoc] at h
    exact_mod_cast h
  · rename_i he
    refine le_nearestEven hd ?_
    have hpos : (0 : ℚ) < 2 ^ e := by positivity
    rw [mul_right_comm, ← le_div_iff₀ hpos, div_eq_mul_inv,
      ← cast_two_pow_toNat_neg (not_le.mp he)] at h
    exact_mod_cast h

private theorem gridSteps_le_of_le (hd : 0 < d) (h : (n : ℚ) ≤ k * 2 ^ e * d) :
    gridSteps n d e ≤ k := by
  rw [gridSteps]
  split
  · rename_i he
    refine nearestEven_le_of_le (Nat.mul_pos hd (Nat.two_pow_pos _)) ?_
    rw [← cast_two_pow_toNat he, mul_right_comm, mul_assoc] at h
    exact_mod_cast h
  · rename_i he
    refine nearestEven_le_of_le hd ?_
    have hpos : (0 : ℚ) < 2 ^ e := by positivity
    rw [mul_right_comm, ← div_le_iff₀ hpos, div_eq_mul_inv,
      ← cast_two_pow_toNat_neg (not_le.mp he)] at h
    exact_mod_cast h

/-- The magnitude is small enough: its power of two is no larger than the number. -/
theorem two_zpow_binaryMagnitude_le (hn : n ≠ 0) (d : ℕ) :
    (d : ℚ) * 2 ^ binaryMagnitude n d ≤ n := by
  rw [binaryMagnitude]
  generalize hk : (n.log2 : ℤ) - d.log2 = k
  by_cases hbelow : (n : ℚ) < d * 2 ^ k
  · rw [if_pos ((scaled_lt_iff two_pos).mpr hbelow)]
    have hd : (d : ℚ) ≤ 2 ^ (d.log2 + 1) := by exact_mod_cast Nat.lt_log2_self.le
    calc (d : ℚ) * 2 ^ (k - 1) ≤ 2 ^ (d.log2 + 1) * 2 ^ (k - 1) := by gcongr
      _ = 2 ^ n.log2 := by
          rw [← zpow_natCast, ← zpow_natCast, ← zpow_add₀ two_ne_zero]
          congr 1
          push_cast
          omega
      _ ≤ n := by exact_mod_cast Nat.log2_self_le hn
  · rw [if_neg (mt (scaled_lt_iff two_pos).mp hbelow)]
    exact not_lt.mp hbelow

end Steps

namespace Point

/-- The point on the other side of zero. -/
def neg : Point → Point
  | .bottom => .top
  | .at q => .at (-q)
  | .top => .bottom

private theorem neg_le_neg_iff (p q : Point) : p.neg ≤ q.neg ↔ q ≤ p := by
  rw [← not_lt, ← not_lt, ← below_iff_lt, ← below_iff_lt]
  cases p <;> cases q <;> simp [neg, below]

end Point

/-- What the positive number `n / d` is rounded to. -/
def roundedRatio (n d : ℕ) : Point :=
  let e := gridExponent n d
  let m := gridSteps n d e
  if 971 < e ∨ (e = 971 ∧ Nat.pow 2 53 ≤ m) then .top else .at (dyadic m e)

private theorem Double.point?_round {q : ℚ} (hq : q ≠ 0) :
    (round q).point? = some
      (if q < 0 then (roundedRatio q.num.natAbs q.den).neg
        else roundedRatio q.num.natAbs q.den) := by
  simp only [round, roundedRatio, if_neg hq]
  generalize gridExponent q.num.natAbs q.den = e
  generalize gridSteps q.num.natAbs q.den e = m
  by_cases hneg : q < 0
  · simp only [hneg, decide_true, if_true]
    split
    · rfl
    · split
      · rename_i hm
        simp [hm, point?, Point.neg, dyadic_eq]
      · rfl
  · simp only [hneg, decide_false, if_false]
    split
    · rfl
    · split
      · rename_i hm
        simp [hm, point?, dyadic_eq]
      · rfl

/-- On a finer grid a number takes more steps. -/
theorem mul_two_zpow_eq (k : ℕ) {e f : ℤ} (h : e ≤ f) :
    (k : ℚ) * 2 ^ f = (k * 2 ^ (f - e).toNat : ℕ) * 2 ^ e := by
  rw [Nat.cast_mul, cast_two_pow_toNat (by omega), mul_assoc, ← zpow_add₀ two_ne_zero,
    sub_add_cancel]

/-- A number that a finite double stands for. -/
def IsDouble (q : ℚ) : Prop :=
  ∃ (k : ℕ) (e : ℤ), k ≤ 2 ^ 53 ∧ -1074 ≤ e ∧ |q| = k * 2 ^ e ∧ |q| < 2 ^ (1024 : ℤ)

namespace IsDouble

theorem neg {q : ℚ} (h : IsDouble q) : IsDouble (-q) := by
  rwa [IsDouble, abs_neg]

theorem zero : IsDouble 0 :=
  ⟨0, 0, by simp⟩

theorem of_int {n : ℤ} (h : |n| ≤ 2 ^ 53) : IsDouble n := by
  have hcast : |(n : ℚ)| = (n.natAbs : ℚ) := by
    rw [← Int.cast_abs, Int.abs_eq_natAbs, Int.cast_natCast]
  have hle : n.natAbs ≤ 2 ^ 53 := by
    rw [Int.abs_eq_natAbs] at h
    exact_mod_cast h
  refine ⟨n.natAbs, 0, hle, by decide, by rw [hcast, zpow_zero, mul_one], ?_⟩
  calc |(n : ℚ)| = n.natAbs := hcast
    _ ≤ 2 ^ 53 := by exact_mod_cast hle
    _ < 2 ^ (1024 : ℤ) := by
        rw [← zpow_natCast]
        exact zpow_lt_zpow_right₀ one_lt_two (by decide)

theorem of_onGrid {q : ℚ} (h : (Double.finite q).OnGrid) : IsDouble q := by
  obtain ⟨p, hp⟩ := h q rfl
  by_cases hzero : p = 0
  · subst hzero
    cases hp
    exact zero
  · have hpoint := Double.point?_round hzero
    simp only [hp, roundedRatio] at hpoint
    generalize he : gridExponent p.num.natAbs p.den = e at hpoint
    have hm : gridSteps p.num.natAbs p.den e ≤ 2 ^ 53 := he ▸ gridSteps_le p.den_pos
    have hmin : -1074 ≤ e := he ▸ le_max_right _ _
    generalize gridSteps p.num.natAbs p.den e = m at hpoint hm
    have hnonneg : 0 ≤ dyadic m e := by
      rw [dyadic_eq]
      positivity
    have hq : |q| = dyadic m e := by
      have := abs_of_nonneg hnonneg
      grind [Double.point?, Point.neg, abs_neg]
    exact ⟨m, e, hm, hmin, hq.trans (dyadic_eq m e), abs_lt_of_round_eq_finite hp⟩

/-- The largest double is a step below the limit. -/
theorem abs_le {q : ℚ} (h : IsDouble q) : |q| ≤ 2 ^ (1024 : ℤ) - 2 ^ (971 : ℤ) := by
  obtain ⟨k, e, hk, -, hq, hlt⟩ := h
  have hsum : (2 : ℚ) ^ (1024 : ℤ) = 2 ^ (53 : ℕ) * 2 ^ (971 : ℤ) := by
    rw [← zpow_natCast, ← zpow_add₀ two_ne_zero]
    rfl
  have hstep : (0 : ℚ) < 2 ^ (971 : ℤ) := by positivity
  rw [hsum] at hlt ⊢
  rcases le_or_gt 971 e with he | he
  · rw [mul_two_zpow_eq k he] at hq
    generalize k * 2 ^ (e - 971).toNat = steps at hq
    generalize (2 : ℚ) ^ (971 : ℤ) = step at hq hlt hstep ⊢
    have hsteps : steps < 2 ^ 53 := by
      rw [hq] at hlt
      exact_mod_cast lt_of_mul_lt_mul_right hlt hstep.le
    have hle : (steps : ℚ) ≤ 2 ^ 53 - 1 := by
      rw [le_sub_iff_add_le]
      exact_mod_cast hsteps
    calc |q| = steps * step := hq
      _ ≤ (2 ^ 53 - 1) * step := by gcongr
      _ = 2 ^ 53 * step - step := by ring
  · have hpow : (2 : ℚ) ^ e * 2 ≤ 2 ^ (971 : ℤ) := by
      rw [← zpow_add_one₀ two_ne_zero]
      exact zpow_le_zpow_right₀ one_le_two (by omega)
    have hk' : (k : ℚ) ≤ 2 ^ 53 := by exact_mod_cast hk
    generalize (2 : ℚ) ^ (971 : ℤ) = step at hpow hstep ⊢
    calc |q| = k * 2 ^ e := hq
      _ ≤ 2 ^ 53 * 2 ^ e := by gcongr
      _ = 2 ^ 52 * (2 ^ e * 2) := by ring
      _ ≤ 2 ^ 52 * step := by gcongr
      _ ≤ 2 ^ 53 * step - step := by linarith

end IsDouble

section Sides

variable {n d k : ℕ} {e f : ℤ} {g p : ℚ}

theorem mul_two_zpow_le (hk : k ≤ 2 ^ 53) (h : f < e) : (k : ℚ) * 2 ^ f ≤ 2 ^ 52 * 2 ^ e := by
  have hk' : (k : ℚ) ≤ 2 ^ 53 := by exact_mod_cast hk
  have hpow : (2 : ℚ) ^ f * 2 ≤ 2 ^ e := by
    rw [← zpow_add_one₀ two_ne_zero]
    exact zpow_le_zpow_right₀ one_le_two (by omega)
  calc (k : ℚ) * 2 ^ f ≤ 2 ^ 53 * 2 ^ f := by gcongr
    _ = 2 ^ 52 * (2 ^ f * 2) := by ring
    _ ≤ 2 ^ 52 * 2 ^ e := by gcongr

/-- Above the smallest steps the grid starts at the power of two below the number. -/
theorem mul_two_zpow_gridExponent_le (hn : n ≠ 0) (h : -1074 < gridExponent n d) :
    2 ^ 52 * (2 : ℚ) ^ gridExponent n d * d ≤ n := by
  have hexponent : gridExponent n d = binaryMagnitude n d - 52 := by
    rw [gridExponent] at h ⊢
    omega
  have hpow : 2 ^ 52 * (2 : ℚ) ^ gridExponent n d = 2 ^ binaryMagnitude n d := by
    rw [hexponent, ← zpow_natCast, ← zpow_add₀ two_ne_zero]
    congr 1
    omega
  rw [hpow, mul_comm]
  exact two_zpow_binaryMagnitude_le hn d

/-- A double below a number is below what it is rounded to: it is some steps of the same grid, or
below its first full step. -/
theorem le_dyadic_gridSteps (hn : n ≠ 0) (hd : 0 < d) (hk : k ≤ 2 ^ 53) (hf : -1074 ≤ f)
    (h : (k : ℚ) * 2 ^ f * d ≤ n) :
    (k : ℚ) * 2 ^ f ≤ dyadic (gridSteps n d (gridExponent n d)) (gridExponent n d) := by
  rw [dyadic_eq]
  rcases le_or_gt (gridExponent n d) f with he | he
  · rw [mul_two_zpow_eq k he] at h ⊢
    have hsteps := le_gridSteps hd h
    gcongr
  · have hsteps : 2 ^ 52 ≤ gridSteps n d (gridExponent n d) := by
      apply le_gridSteps hd
      exact_mod_cast mul_two_zpow_gridExponent_le hn (hf.trans_lt he)
    refine (mul_two_zpow_le hk he).trans ?_
    gcongr
    exact_mod_cast hsteps

private theorem dyadic_gridSteps_le (hn : n ≠ 0) (hd : 0 < d) (hk : k ≤ 2 ^ 53) (hf : -1074 ≤ f)
    (h : (n : ℚ) ≤ k * 2 ^ f * d) :
    dyadic (gridSteps n d (gridExponent n d)) (gridExponent n d) ≤ k * 2 ^ f := by
  have hd' : (0 : ℚ) < d := by exact_mod_cast hd
  rw [dyadic_eq]
  rcases le_or_gt (gridExponent n d) f with he | he
  · rw [mul_two_zpow_eq k he] at h ⊢
    have hsteps := gridSteps_le_of_le hd h
    gcongr
  · have hfirst := mul_two_zpow_gridExponent_le hn (hf.trans_lt he)
    have hle := mul_two_zpow_le hk he
    have hsteps : gridSteps n d (gridExponent n d) ≤ 2 ^ 52 := by
      apply gridSteps_le_of_le hd
      exact_mod_cast h.trans (mul_le_mul_of_nonneg_right hle hd'.le)
    calc (gridSteps n d (gridExponent n d) : ℚ) * 2 ^ gridExponent n d
        ≤ 2 ^ 52 * 2 ^ gridExponent n d := by
          gcongr
          exact_mod_cast hsteps
      _ ≤ k * 2 ^ f := le_of_mul_le_mul_right (hfirst.trans h) hd'

theorem le_dyadic_of_overflow (hn : n ≠ 0) (hd : 0 < d)
    (h : 971 < gridExponent n d ∨
      (gridExponent n d = 971 ∧ Nat.pow 2 53 ≤ gridSteps n d (gridExponent n d))) :
    2 ^ (1024 : ℤ) ≤ dyadic (gridSteps n d (gridExponent n d)) (gridExponent n d) := by
  rw [dyadic_eq]
  rcases h with he | ⟨he, hsteps⟩
  · have hsteps : 2 ^ 52 ≤ gridSteps n d (gridExponent n d) := by
      apply le_gridSteps hd
      exact_mod_cast mul_two_zpow_gridExponent_le hn (by omega)
    calc (2 : ℚ) ^ (1024 : ℤ) = (2 ^ 52 : ℕ) * 2 ^ (972 : ℤ) := by
          rw [Nat.cast_pow, ← zpow_natCast, Nat.cast_ofNat, ← zpow_add₀ two_ne_zero]
          rfl
      _ ≤ gridSteps n d (gridExponent n d) * 2 ^ gridExponent n d := by
          gcongr
          · exact one_le_two
          · omega
  · calc (2 : ℚ) ^ (1024 : ℤ) = (2 ^ 53 : ℕ) * 2 ^ (971 : ℤ) := by
          rw [Nat.cast_pow, ← zpow_natCast, Nat.cast_ofNat, ← zpow_add₀ two_ne_zero]
          rfl
      _ ≤ gridSteps n d (gridExponent n d) * 2 ^ gridExponent n d := by
          rw [he] at hsteps ⊢
          gcongr
          exact hsteps

private theorem le_roundedRatio (hg : IsDouble g) (hn : n ≠ 0) (hd : 0 < d) (h : g * d ≤ n) :
    .at g ≤ roundedRatio n d := by
  simp only [roundedRatio]
  split
  · exact Point.le_top _
  · rw [Point.at_le_at]
    rcases le_or_gt g 0 with hneg | hpos
    · refine hneg.trans ?_
      rw [dyadic_eq]
      positivity
    · obtain ⟨k, e, hk, he, habs, -⟩ := hg
      rw [abs_of_pos hpos] at habs
      rw [habs] at h ⊢
      exact le_dyadic_gridSteps hn hd hk he h

private theorem roundedRatio_le (hg : IsDouble g) (hn : n ≠ 0) (hd : 0 < d) (h : n ≤ g * d) :
    roundedRatio n d ≤ .at g := by
  have hpos : 0 < g := by
    have hn' : (0 : ℚ) < n := by exact_mod_cast Nat.pos_of_ne_zero hn
    exact pos_of_mul_pos_left (hn'.trans_le h) (Nat.cast_nonneg d)
  obtain ⟨k, e, hk, he, habs, hlt⟩ := hg
  rw [abs_of_pos hpos] at habs hlt
  rw [habs] at h
  have hle := dyadic_gridSteps_le hn hd hk he h
  rw [← habs] at hle
  simp only [roundedRatio]
  split
  · rename_i hover
    exact absurd ((le_dyadic_of_overflow hn hd hover).trans hle) (not_le.mpr hlt)
  · rwa [Point.at_le_at]

/-- Short of the halfway point above the largest double nothing is rounded to an infinity. -/
theorem exists_roundedRatio (hn : n ≠ 0) (hd : 0 < d)
    (h : (n : ℚ) < (2 ^ (1024 : ℤ) - 2 ^ (970 : ℤ)) * d) : ∃ q, roundedRatio n d = .at q := by
  have hd' : (0 : ℚ) < d := by exact_mod_cast hd
  refine ⟨_, if_neg ?_⟩
  rintro (he | ⟨he, hsteps⟩)
  · have hfirst := mul_two_zpow_gridExponent_le hn (d := d) (by omega)
    have hlt : (2 : ℚ) ^ 52 * 2 ^ gridExponent n d < 2 ^ (1024 : ℤ) := by
      refine (lt_of_mul_lt_mul_right (hfirst.trans_lt h) hd'.le).trans ?_
      rw [sub_lt_self_iff]
      positivity
    rw [← zpow_natCast, ← zpow_add₀ two_ne_zero, zpow_lt_zpow_iff_right₀ one_lt_two] at hlt
    omega
  · rw [gridSteps, if_pos (by omega)] at hsteps
    refine absurd (nearestEven_lt ?_) (not_lt.mpr hsteps)
    have hpow : ((Nat.pow 2 (gridExponent n d).toNat : ℕ) : ℚ) = 2 ^ (970 : ℤ) * 2 :=
      calc ((Nat.pow 2 (gridExponent n d).toNat : ℕ) : ℚ) = 2 ^ gridExponent n d :=
            cast_two_pow_toNat (by omega)
        _ = 2 ^ (970 : ℤ) * 2 := by
            rw [he]
            exact zpow_add_one₀ two_ne_zero 970
    have hlimit : (2 : ℚ) ^ (1024 : ℤ) - 2 ^ (970 : ℤ) = (2 ^ 54 - 1) * 2 ^ (970 : ℤ) := by
      rw [sub_mul, one_mul, ← zpow_natCast, ← zpow_add₀ two_ne_zero]
      rfl
    rw [hlimit] at h
    generalize Nat.pow 2 (gridExponent n d).toNat = step at hpow ⊢
    generalize (2 : ℚ) ^ (970 : ℤ) = half at hpow h
    have hlt : (2 * n : ℚ) < (2 ^ 54 - 1) * (d * step) := by
      rw [hpow]
      linarith
    have hcount : 2 * Nat.pow 2 53 - 1 = 2 ^ 54 - 1 := rfl
    norm_num at hlt
    rw [hcount]
    exact_mod_cast hlt

end Sides

namespace Double

variable {g p q : ℚ}

theorem natAbs_num_eq (p : ℚ) : (p.num.natAbs : ℚ) = |p| * p.den := by
  rw [← Int.cast_natCast, ← Int.abs_eq_natAbs, Int.cast_abs, ← Rat.mul_den_eq_num, abs_mul,
    Nat.abs_cast]

theorem natAbs_num_ne_zero (hp : p ≠ 0) : p.num.natAbs ≠ 0 :=
  Int.natAbs_ne_zero.mpr (Rat.num_ne_zero.mpr hp)

/-- A double at most a number is at most what the number is rounded to. -/
theorem le_round (hg : IsDouble g) (h : g ≤ p) : ∃ t, (round p).point? = some t ∧ .at g ≤ t := by
  by_cases hp : p = 0
  · subst hp
    exact ⟨.at 0, rfl, (Point.at_le_at _ _).mpr h⟩
  · refine ⟨_, point?_round hp, ?_⟩
    have hden : (0 : ℚ) ≤ p.den := Nat.cast_nonneg _
    split
    · rename_i hneg
      rw [show Point.at g = (Point.at (-g)).neg by simp [Point.neg], Point.neg_le_neg_iff]
      apply roundedRatio_le hg.neg (natAbs_num_ne_zero hp) p.den_pos
      rw [natAbs_num_eq, abs_of_neg hneg]
      gcongr
    · rename_i hpos
      apply le_roundedRatio hg (natAbs_num_ne_zero hp) p.den_pos
      rw [natAbs_num_eq, abs_of_nonneg (not_lt.mp hpos)]
      gcongr

theorem round_le (hg : IsDouble g) (h : p ≤ g) : ∃ t, (round p).point? = some t ∧ t ≤ .at g := by
  by_cases hp : p = 0
  · subst hp
    exact ⟨.at 0, rfl, (Point.at_le_at _ _).mpr h⟩
  · refine ⟨_, point?_round hp, ?_⟩
    have hden : (0 : ℚ) ≤ p.den := Nat.cast_nonneg _
    split
    · rename_i hneg
      rw [show Point.at g = (Point.at (-g)).neg by simp [Point.neg], Point.neg_le_neg_iff]
      apply le_roundedRatio hg.neg (natAbs_num_ne_zero hp) p.den_pos
      rw [natAbs_num_eq, abs_of_neg hneg]
      gcongr
    · rename_i hpos
      apply roundedRatio_le hg (natAbs_num_ne_zero hp) p.den_pos
      rw [natAbs_num_eq, abs_of_nonneg (not_lt.mp hpos)]
      gcongr

private theorem exists_round (h : |p| < 2 ^ (1024 : ℤ) - 2 ^ (970 : ℤ)) :
    ∃ r, (round p).point? = some (.at r) := by
  by_cases hp : p = 0
  · subst hp
    exact ⟨0, rfl⟩
  · have hden : (0 : ℚ) < p.den := by exact_mod_cast p.den_pos
    have hlt : (p.num.natAbs : ℚ) < (2 ^ (1024 : ℤ) - 2 ^ (970 : ℤ)) * p.den := by
      rw [natAbs_num_eq]
      exact mul_lt_mul_of_pos_right h hden
    obtain ⟨r, hr⟩ := exists_roundedRatio (natAbs_num_ne_zero hp) p.den_pos hlt
    rw [point?_round hp, hr]
    split
    · exact ⟨-r, rfl⟩
    · exact ⟨r, rfl⟩

end Double

private theorem two_pow_le_sub {a j k : ℕ} (ha : a ≤ j) (hk : j < k) :
    Nat.pow 2 a ≤ Nat.pow 2 k - Nat.pow 2 j := by
  have hsmall : 2 ^ a ≤ 2 ^ j := Nat.pow_le_pow_right Nat.two_pos ha
  have hdouble : 2 ^ (j + 1) ≤ 2 ^ k := Nat.pow_le_pow_right Nat.two_pos hk
  rw [Nat.pow_succ] at hdouble
  simp only [Nat.pow_eq]
  omega

namespace Number

/-- An integer, or a double that rounding makes. -/
def OnGrid : Number → Prop
  | .int _ => True
  | .double d => d.OnGrid

variable {a : Number} {g q : ℚ} {n : ℤ}

private theorem shift_double {d : Double} (h : d.point? = some (.at q)) (n : ℤ) :
    d.shift n = .round (q + n) := by
  cases d with
  | nan => contradiction
  | infinite negative => cases negative <;> simp [Double.point?] at h
  | negativeZero =>
      cases h
      simp [Double.shift]
  | finite p =>
      cases h
      rfl

/-- Rounding aside, a bound moved by `n` is `n` away. -/
theorem le_shift (h : a.point? = some (.at q)) (hg : IsDouble g) (hle : g ≤ q + n) :
    ∃ t, (a.shift n).point? = some t ∧ .at g ≤ t := by
  cases a with
  | int k =>
      cases h
      refine ⟨_, rfl, ?_⟩
      rw [Point.at_le_at]
      exact_mod_cast hle
  | double d =>
      simp only [shift, point?, shift_double h]
      exact Double.le_round hg hle

theorem shift_le (h : a.point? = some (.at q)) (hg : IsDouble g) (hle : q + n ≤ g) :
    ∃ t, (a.shift n).point? = some t ∧ t ≤ .at g := by
  cases a with
  | int k =>
      cases h
      refine ⟨_, rfl, ?_⟩
      rw [Point.at_le_at]
      exact_mod_cast hle
  | double d =>
      simp only [shift, point?, shift_double h]
      exact Double.round_le hg hle

private theorem OnGrid.isDouble {d : Double} (grid : d.OnGrid) (h : d.point? = some (.at q)) :
    IsDouble q := by
  cases d with
  | nan => contradiction
  | infinite negative => cases negative <;> simp [Double.point?] at h
  | negativeZero =>
      cases h
      exact .zero
  | finite p =>
      cases h
      exact .of_onGrid grid

theorem OnGrid.le_shift (grid : a.OnGrid) (h : a.point? = some (.at q)) (hn : 0 ≤ n) :
    ∃ t, (a.shift n).point? = some t ∧ .at q ≤ t := by
  cases a with
  | int k =>
      cases h
      refine ⟨_, rfl, ?_⟩
      rw [Point.at_le_at]
      exact_mod_cast Int.le_add_of_nonneg_right hn
  | double d =>
      have hn' : (0 : ℚ) ≤ n := by exact_mod_cast hn
      exact Number.le_shift h (isDouble grid h) (le_add_of_nonneg_right hn')

theorem OnGrid.shift_le (grid : a.OnGrid) (h : a.point? = some (.at q)) (hn : n ≤ 0) :
    ∃ t, (a.shift n).point? = some t ∧ t ≤ .at q := by
  cases a with
  | int k =>
      cases h
      refine ⟨_, rfl, ?_⟩
      rw [Point.at_le_at]
      exact_mod_cast add_le_of_nonpos_right hn
  | double d =>
      have hn' : (n : ℚ) ≤ 0 := by exact_mod_cast hn
      exact Number.shift_le h (isDouble grid h) (add_le_of_nonpos_right hn')

/-- A step of one does not reach the infinities. -/
theorem OnGrid.exists_shift (grid : a.OnGrid) (h : a.point? = some (.at q)) (hn : |n| ≤ 1) :
    ∃ r, (a.shift n).point? = some (.at r) := by
  cases a with
  | int k => exact ⟨_, rfl⟩
  | double d =>
      have hq := (isDouble grid h).abs_le
      have hn' : |(n : ℚ)| ≤ 1 := by exact_mod_cast hn
      have hstep : (2 : ℚ) ^ (971 : ℤ) = 2 ^ (970 : ℤ) * 2 := zpow_add_one₀ two_ne_zero 970
      have hone : (1 : ℚ) < 2 ^ (970 : ℤ) := one_lt_zpow₀ one_lt_two (by decide)
      have hsum := abs_add_le q n
      simp only [shift, point?, shift_double h]
      apply Double.exists_round
      rw [hstep] at hq
      generalize (2 : ℚ) ^ (1024 : ℤ) = limit at hq ⊢
      generalize (2 : ℚ) ^ (970 : ℤ) = half at hq hone ⊢
      linarith

/-- Small integers are within the range of the doubles. -/
theorem isInfinite?_of_small (h : n.natAbs < Nat.pow 2 64) : (int n).isInfinite? = some false := by
  rw [isInfinite?, if_pos]
  rw [doubleLimit]
  refine lt_of_lt_of_le h ?_
  apply two_pow_le_sub <;> decide

end Number

end TermRules
