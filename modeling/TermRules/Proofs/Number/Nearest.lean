import TermRules.Proofs.Number.Rounding
import TermRules.Proofs.Number.Writable

/-!
Which double a number is rounded to. The numbers that are rounded to a positive double are the
members of its rounding interval: no farther from it than halfway to its neighbours, the halfway
points included when its significand is even. The largest double has a neighbour here too, the first
power of two that is infinite.
-/

namespace TermRules

/-- No whole number is nearer to `q` than `k`, and halfway between two `k` is the even one. -/
def IsNearestEven (q : ℚ) (k : ℕ) : Prop :=
  |q - k| ≤ 1 / 2 ∧ (|q - k| = 1 / 2 → Even k)

namespace IsNearestEven

variable {q : ℚ} {j k : ℕ}

private theorem unique (hj : IsNearestEven q j) (hk : IsNearestEven q k) : j = k := by
  wlog hle : j ≤ k generalizing j k
  · exact (this hk hj (Nat.le_of_not_le hle)).symm
  obtain ⟨hj, htiej⟩ := hj
  obtain ⟨hk, htiek⟩ := hk
  by_contra hne
  -- Two nearest numbers lie one apart with `q` halfway between them, and one of the two is odd.
  have hlt : (j : ℚ) + 1 ≤ k := by exact_mod_cast Nat.lt_of_le_of_ne hle hne
  obtain ⟨-, hjhigh⟩ := abs_le.mp hj
  obtain ⟨hklow, -⟩ := abs_le.mp hk
  have hq : q = j + 1 / 2 := by linarith
  have hsucc : k = j + 1 := by
    have : (k : ℚ) = j + 1 := by linarith
    exact_mod_cast this
  have hjeven : Even j := htiej (by rw [hq, add_sub_cancel_left, abs_of_pos (by norm_num)])
  have hkeven : Even k := htiek (by
    have hhalf : q - k = -(1 / 2) := by
      rw [hq, hsucc]
      push_cast
      ring
    rw [hhalf, abs_neg, abs_of_pos (by norm_num)])
  rw [hsucc, Nat.even_add_one] at hkeven
  exact hkeven hjeven

end IsNearestEven

private theorem isNearestEven_div_iff {r s : ℚ} {k : ℕ} (hs : 0 < s) :
    IsNearestEven (r / s) k ↔ |r - k * s| ≤ s / 2 ∧ (|r - k * s| = s / 2 → Even k) := by
  have habs : |r / s - k| = |r - k * s| / s := by
    rw [← abs_of_pos hs, ← abs_div, abs_of_pos hs, sub_div, mul_div_cancel_right₀ _ hs.ne']
  rw [IsNearestEven, habs, div_le_iff₀ hs, div_eq_iff hs.ne', one_div_mul_eq_div]

section Steps

variable {n d k : ℕ} {e : ℤ}

private theorem isNearestEven_add_of_lt {r : ℚ} (hnonneg : 0 ≤ r) (hlt : r < 1 / 2) :
    IsNearestEven (k + r) k := by
  rw [IsNearestEven, add_sub_cancel_left, abs_of_nonneg hnonneg]
  exact ⟨hlt.le, fun heq => absurd heq hlt.ne⟩

private theorem isNearestEven_add_of_gt {r : ℚ} (hgt : 1 / 2 < r) (hlt : r < 1) :
    IsNearestEven (k + r) (k + 1 : ℕ) := by
  have habs : |(k : ℚ) + r - (k + 1 : ℕ)| = 1 - r := by
    rw [abs_of_nonpos] <;> push_cast <;> linarith
  rw [IsNearestEven, habs]
  exact ⟨by linarith, fun heq => by linarith⟩

private theorem isNearestEven_add_half (k : ℕ) : IsNearestEven (k + 1 / 2) (k + k % 2) := by
  have hparity : k % 2 = 0 ∨ k % 2 = 1 := by omega
  rcases hparity with hk | hk
  · rw [hk, add_zero, IsNearestEven, add_sub_cancel_left, abs_of_nonneg (by norm_num)]
    exact ⟨le_rfl, fun _ => Nat.even_iff.mpr hk⟩
  · refine ⟨?_, fun _ => by rw [Nat.even_iff]; omega⟩
    rw [hk, abs_of_nonpos] <;> push_cast <;> linarith

private theorem isNearestEven_nearestEven (hd : 0 < d) :
    IsNearestEven (n / d) (nearestEven n d) := by
  have hd' : (0 : ℚ) < d := by exact_mod_cast hd
  have hdiv : (n / d : ℚ) = (n / d : ℕ) + (n % d : ℕ) / d := by
    rw [add_div' _ _ _ hd'.ne', div_left_inj' hd'.ne']
    exact_mod_cast (Nat.div_add_mod' n d).symm
  have hrest : ((n % d : ℕ) : ℚ) / d < 1 := by
    rw [div_lt_one hd']
    exact_mod_cast Nat.mod_lt n hd
  have hbelow : ((n % d : ℕ) : ℚ) / d < 1 / 2 ↔ 2 * (n % d) < d := by
    rw [div_lt_iff₀ hd', ← Nat.cast_lt (α := ℚ), Nat.cast_mul, Nat.cast_ofNat]
    constructor <;> intro h <;> linarith
  have habove : 1 / 2 < ((n % d : ℕ) : ℚ) / d ↔ d < 2 * (n % d) := by
    rw [lt_div_iff₀ hd', ← Nat.cast_lt (α := ℚ), Nat.cast_mul, Nat.cast_ofNat]
    constructor <;> intro h <;> linarith
  rw [hdiv]
  simp only [nearestEven]
  split
  · rename_i hlt
    exact isNearestEven_add_of_lt (by positivity) (hbelow.mpr hlt)
  · rename_i hge
    split
    · rename_i hgt
      exact isNearestEven_add_of_gt (habove.mpr hgt) hrest
    · rename_i hle
      have hhalf : ((n % d : ℕ) : ℚ) / d = 1 / 2 :=
        le_antisymm (not_lt.mp (mt habove.mp hle)) (not_lt.mp (mt hbelow.mp hge))
      rw [hhalf]
      exact isNearestEven_add_half _

/-- The steps taken on the grid of `2 ^ e` are those nearest to the number. -/
theorem gridSteps_eq_iff (hd : 0 < d) : gridSteps n d e = k ↔ IsNearestEven (n / d / 2 ^ e) k := by
  have hnearest : IsNearestEven (n / d / 2 ^ e) (gridSteps n d e) := by
    rw [gridSteps]
    split
    · rename_i he
      have hstep : 0 < d * Nat.pow 2 e.toNat := Nat.mul_pos hd (Nat.two_pow_pos _)
      have hcast : (n / d / 2 ^ e : ℚ) = n / (d * Nat.pow 2 e.toNat : ℕ) := by
        rw [Nat.cast_mul, div_div, ← cast_two_pow_toNat he]
        rfl
      rw [hcast]
      exact isNearestEven_nearestEven hstep
    · rename_i he
      have hcast : (n / d / 2 ^ e : ℚ) = (n * Nat.pow 2 (-e).toNat : ℕ) / d := by
        rw [Nat.cast_mul, div_right_comm, div_eq_mul_inv (n : ℚ),
          ← cast_two_pow_toNat_neg (not_le.mp he)]
        rfl
      rw [hcast]
      exact isNearestEven_nearestEven hd
  constructor
  · rintro rfl
    exact hnearest
  · exact hnearest.unique

end Steps

theorem two_zpow_sub_one (e : ℤ) : (2 : ℚ) ^ (e - 1) = 2 ^ e / 2 := by
  rw [zpow_sub_one₀ two_ne_zero, div_eq_mul_inv]

namespace Double

variable {r v : ℚ} {e : ℤ} {k : ℕ}

/-- The exponent of the spacing of doubles around a positive number. -/
def gridOf (r : ℚ) : ℤ :=
  gridExponent r.num.natAbs r.den

/-- The number of steps of that grid that are nearest to a positive number. -/
def stepsOf (r : ℚ) : ℕ :=
  gridSteps r.num.natAbs r.den (gridOf r)

private theorem natAbs_num_div_den (hr : 0 < r) : (r.num.natAbs / r.den : ℚ) = r := by
  have hden : (r.den : ℚ) ≠ 0 := by exact_mod_cast r.den_ne_zero
  rw [natAbs_num_eq, abs_of_pos hr, mul_div_cancel_right₀ _ hden]

private theorem stepsOf_eq_iff (hr : 0 < r) : stepsOf r = k ↔
    |r - k * 2 ^ gridOf r| ≤ 2 ^ gridOf r / 2 ∧
    (|r - k * 2 ^ gridOf r| = 2 ^ gridOf r / 2 → Even k) := by
  rw [stepsOf, gridSteps_eq_iff r.den_pos, natAbs_num_div_den hr]
  exact isNearestEven_div_iff (by positivity)

private theorem le_gridOf (r : ℚ) : -1074 ≤ gridOf r :=
  le_max_right _ _

theorem lt_gridOf (hr : 0 < r) : r < 2 ^ 53 * 2 ^ gridOf r := by
  have hden : (0 : ℚ) < r.den := by exact_mod_cast r.den_pos
  have hlt := lt_two_zpow_binaryMagnitude (n := r.num.natAbs) r.den_pos
  rw [natAbs_num_eq, abs_of_pos hr, mul_comm r, mul_lt_mul_iff_right₀ hden] at hlt
  refine hlt.trans_le ?_
  rw [← zpow_natCast, ← zpow_add₀ two_ne_zero]
  refine zpow_le_zpow_right₀ one_le_two ?_
  rw [gridOf, gridExponent]
  omega

private theorem gridOf_le (hr : 0 < r) (h : -1074 < gridOf r) : 2 ^ 52 * 2 ^ gridOf r ≤ r := by
  have hden : (0 : ℚ) < r.den := by exact_mod_cast r.den_pos
  have hle := mul_two_zpow_gridExponent_le (natAbs_num_ne_zero hr.ne') h
  rw [natAbs_num_eq, abs_of_pos hr] at hle
  exact le_of_mul_le_mul_right hle hden

private theorem le_stepsOf (hr : 0 < r) (h : -1074 < gridOf r) : 2 ^ 52 ≤ stepsOf r := by
  refine le_gridSteps r.den_pos ?_
  rw [natAbs_num_eq, abs_of_pos hr]
  gcongr
  exact_mod_cast gridOf_le hr h

/-- The spacing is the one power of two of which the number has 53 binary digits, or the finest one,
of which it has fewer. -/
theorem gridOf_eq (hr : 0 < r) (he : -1074 ≤ e) (hhigh : r < 2 ^ 53 * 2 ^ e)
    (hlow : -1074 < e → 2 ^ 52 * 2 ^ e ≤ r) : gridOf r = e := by
  have hmono {f g : ℤ} (h : f < g) : (2 : ℚ) ^ 53 * 2 ^ f ≤ 2 ^ 52 * 2 ^ g := by
    have hpow : (2 : ℚ) ^ f * 2 ≤ 2 ^ g := by
      rw [← zpow_add_one₀ two_ne_zero]
      exact zpow_le_zpow_right₀ one_le_two (by omega)
    linarith
  rcases lt_trichotomy (gridOf r) e with hlt | heq | hgt
  · have hge := hlow ((le_gridOf r).trans_lt hlt)
    exact absurd ((lt_gridOf hr).trans_le (hmono hlt)) (not_lt.mpr hge)
  · exact heq
  · have hge := gridOf_le hr (he.trans_lt hgt)
    exact absurd (hhigh.trans_le (hmono hgt)) (not_lt.mpr hge)

/-- A positive double as a number of steps of its grid: 53 binary digits, or fewer on the
finest grid. -/
structure IsSteps (v : ℚ) (m : ℕ) (e : ℤ) : Prop where
  eq : v = m * 2 ^ e
  exponent : -1074 ≤ e
  pos : 0 < m
  lt : m < 2 ^ 53
  le : -1074 < e → 2 ^ 52 ≤ m

theorem IsSteps.eq_of_steps {m : ℕ} (h : IsSteps v m e) (hm : m = 2 ^ 52) : v = 2 ^ 52 * 2 ^ e := by
  have hv := h.eq
  rw [hm] at hv
  exact_mod_cast hv

/-- A positive double is one step or more. -/
theorem IsSteps.step_le {m : ℕ} (h : IsSteps v m e) : 2 ^ e ≤ v := by
  have hone : (1 : ℚ) ≤ m := by exact_mod_cast h.pos
  exact (le_mul_of_one_le_left (by positivity) hone).trans_eq h.eq.symm

private theorem exists_steps (hv : IsDouble v) (hpos : 0 < v) : ∃ j : ℕ, v = j * 2 ^ gridOf v := by
  obtain ⟨k, f, hk, hf, heq, -⟩ := hv
  rw [abs_of_pos hpos] at heq
  rcases le_or_gt (gridOf v) f with hle | hlt
  · exact ⟨k * 2 ^ (f - gridOf v).toNat, heq.trans (mul_two_zpow_eq k hle)⟩
  · -- A double coarser than its digits need is the power of two at which its grid starts.
    have hge := gridOf_le hpos (hf.trans_lt hlt)
    refine ⟨2 ^ 52, le_antisymm ?_ (by exact_mod_cast hge)⟩
    exact_mod_cast heq.trans_le (mul_two_zpow_le hk hlt)

theorem isSteps_of_isDouble (hv : IsDouble v) (hpos : 0 < v) :
    IsSteps v (stepsOf v) (gridOf v) := by
  obtain ⟨j, hj⟩ := exists_steps hv hpos
  have hstep : (0 : ℚ) < 2 ^ gridOf v := by positivity
  have hsteps : stepsOf v = j := by
    rw [stepsOf_eq_iff hpos, ← hj, sub_self, abs_zero]
    exact ⟨by positivity, fun h => absurd h (by positivity)⟩
  rw [hsteps]
  refine ⟨hj, le_gridOf v, ?_, ?_, fun h => ?_⟩
  · refine Nat.pos_of_ne_zero fun hzero => hpos.ne' ?_
    rw [hj, hzero, Nat.cast_zero, zero_mul]
  · exact_mod_cast lt_of_mul_lt_mul_right (hj.symm.trans_lt (lt_gridOf hpos)) hstep.le
  · exact_mod_cast le_of_mul_le_mul_right ((gridOf_le hpos h).trans_eq hj) hstep

/-- A number is rounded to a double just if its nearest steps come to it. -/
theorem round_eq_finite_iff_steps (hv : IsDouble v) (hpos : 0 < v) (hr : 0 < r) :
    round r = .finite v ↔ (stepsOf r : ℚ) * 2 ^ gridOf r = v := by
  have hround : round r =
      if 971 < gridOf r ∨ (gridOf r = 971 ∧ Nat.pow 2 53 ≤ stepsOf r) then .infinite false
      else if stepsOf r = 0 then .finite 0 else .finite (dyadic (stepsOf r) (gridOf r)) := by
    simp only [round, if_neg hr.ne', decide_eq_false (not_lt.mpr hr.le),
      Bool.false_eq_true, if_false]
    rfl
  rw [hround, ← dyadic_eq]
  split
  · rename_i hover
    refine iff_of_false (by simp) fun heq => ?_
    obtain ⟨-, -, -, -, -, hlt⟩ := hv
    rw [abs_of_pos hpos, ← heq] at hlt
    exact absurd (le_dyadic_of_overflow (natAbs_num_ne_zero hr.ne') r.den_pos hover)
      (not_le.mpr hlt)
  · split
    · rename_i hzero
      rw [hzero, dyadic_eq, Nat.cast_zero, zero_mul, finite.injEq]
    · rw [finite.injEq]

end Double

namespace RoundingInterval

open Double

variable {i : RoundingInterval} {a q r v : ℚ}

private theorem contains_iff (h : i.low < i.high) :
    i.contains q = true ↔
      i.low ≤ q ∧ q ≤ i.high ∧ (q = i.low ∨ q = i.high → i.closed = true) := by
  simp only [contains, Bool.or_eq_true, Bool.and_eq_true, decide_eq_true_eq]
  constructor
  · rintro (⟨hlow, hhigh⟩ | ⟨hclosed, rfl | rfl⟩)
    · exact ⟨hlow.le, hhigh.le, fun hend => by rcases hend with rfl | rfl <;> simp_all⟩
    · exact ⟨le_rfl, h.le, fun _ => hclosed⟩
    · exact ⟨h.le, le_rfl, fun _ => hclosed⟩
  · rintro ⟨hlow, hhigh, hend⟩
    rcases hlow.lt_or_eq with hlow | rfl
    · rcases hhigh.lt_or_eq with hhigh | rfl
      · exact .inl ⟨hlow, hhigh⟩
      · exact .inr ⟨hend (.inr rfl), .inr rfl⟩
    · exact .inr ⟨hend (.inl rfl), .inl rfl⟩

theorem contains_of_lt (hlow : i.low < q) (hhigh : q < i.high) : i.contains q = true := by
  simp [contains, hlow, hhigh]

/-- How far the rounding interval of `m` steps of `2 ^ e` reaches below: half a step, and half of
the finer one below a power of two. -/
def reach (m : ℕ) (e : ℤ) : ℚ :=
  if m = 2 ^ 52 ∧ -1074 < e then 2 ^ e / 4 else 2 ^ e / 2

theorem around_eq (v : ℚ) :
    around v = ⟨v - reach (stepsOf v) (gridOf v), v + 2 ^ gridOf v / 2, stepsOf v % 2 = 0⟩ := by
  have hhalf : dyadic 1 (gridOf v - 1) = 2 ^ gridOf v / 2 := by
    rw [dyadic_eq, Nat.cast_one, one_mul, two_zpow_sub_one]
  have hquarter : dyadic 1 (gridOf v - 2) = 2 ^ gridOf v / 4 := by
    rw [dyadic_eq, Nat.cast_one, one_mul, zpow_sub₀ two_ne_zero, div_eq_mul_inv, div_eq_mul_inv]
    norm_num
  rw [reach, ← hhalf, ← hquarter]
  rfl

private theorem reach_le (m : ℕ) (e : ℤ) : reach m e ≤ 2 ^ e / 2 := by
  have hstep : (0 : ℚ) < 2 ^ e := by positivity
  rw [reach]
  split <;> linarith

private theorem reach_pos (m : ℕ) (e : ℤ) : 0 < reach m e := by
  rw [reach]
  split <;> positivity

theorem around_low_lt (v : ℚ) : (around v).low < v := by
  rw [around_eq]
  exact sub_lt_self v (reach_pos _ _)

theorem lt_around_high (v : ℚ) : v < (around v).high := by
  rw [around_eq]
  exact lt_add_of_pos_right v (by positivity)

private theorem contains_around_iff : (around v).contains q = true ↔
    (around v).low ≤ q ∧ q ≤ (around v).high ∧
      (q = (around v).low ∨ q = (around v).high → (around v).closed = true) :=
  contains_iff ((around_low_lt v).trans (lt_around_high v))

/-- With a number the interval contains all that lies between that number and the double. -/
theorem contains_of_between (ha : (around v).contains a = true)
    (h : (a ≤ q ∧ q ≤ v) ∨ (v ≤ q ∧ q ≤ a)) : (around v).contains q = true := by
  have hlow := around_low_lt v
  have hhigh := lt_around_high v
  rw [contains_around_iff] at ha ⊢
  obtain ⟨hla, hah, hend⟩ := ha
  rcases h with ⟨haq, hqv⟩ | ⟨hvq, hqa⟩
  · refine ⟨hla.trans haq, hqv.trans hhigh.le, ?_⟩
    rintro (rfl | rfl)
    · exact hend (.inl (le_antisymm haq hla))
    · exact absurd hqv hhigh.not_ge
  · refine ⟨hlow.le.trans hvq, hqa.trans hah, ?_⟩
    rintro (rfl | rfl)
    · exact absurd hvq hlow.not_ge
    · exact hend (.inr (le_antisymm hah hqa))

end RoundingInterval

namespace Double

open RoundingInterval

variable {r v : ℚ}

/-- Numbers whose nearest steps come to one double: they have its grid, or are less than a step of
the next finer grid below the power of two that the double is. -/
theorem steps_cases (hv : IsDouble v) (hpos : 0 < v) (hr : 0 < r)
    (h : (stepsOf r : ℚ) * 2 ^ gridOf r = v) :
    (gridOf r = gridOf v ∧ stepsOf r = stepsOf v) ∨
      (gridOf r = gridOf v - 1 ∧ stepsOf r = 2 ^ 53 ∧ stepsOf v = 2 ^ 52) := by
  have hsteps := isSteps_of_isDouble hv hpos
  have hle : stepsOf r ≤ 2 ^ 53 := gridSteps_le r.den_pos
  have hstep : (0 : ℚ) < 2 ^ gridOf r := by positivity
  rcases hle.lt_or_eq with hlt | heq
  · have hgrid : gridOf v = gridOf r := by
      refine gridOf_eq hpos (le_gridOf r) ?_ fun hfine => ?_
      · rw [← h]
        gcongr
        exact_mod_cast hlt
      · rw [← h]
        gcongr
        exact_mod_cast le_stepsOf hr hfine
    refine .inl ⟨hgrid.symm, ?_⟩
    rw [hsteps.eq, hgrid] at h
    exact_mod_cast mul_right_cancel₀ hstep.ne' h
  · have hv' : v = 2 ^ 52 * 2 ^ (gridOf r + 1) := by
      rw [← h, heq, zpow_add_one₀ two_ne_zero]
      push_cast
      ring
    have hgrid : gridOf v = gridOf r + 1 := by
      refine gridOf_eq hpos ((le_gridOf r).trans (by omega)) ?_ fun _ => hv'.ge
      rw [hv']
      gcongr <;> norm_num
    refine .inr ⟨by omega, heq, ?_⟩
    have hsame : (stepsOf v : ℚ) * 2 ^ (gridOf r + 1) = 2 ^ 52 * 2 ^ (gridOf r + 1) := by
      rw [← hv', ← hgrid]
      exact hsteps.eq.symm
    exact_mod_cast mul_right_cancel₀ (by positivity) hsame

private theorem contains_of_steps (hv : IsDouble v) (hpos : 0 < v) (hr : 0 < r)
    (h : (stepsOf r : ℚ) * 2 ^ gridOf r = v) : (around v).contains r = true := by
  rw [contains_around_iff, around_eq, decide_eq_true_iff]
  have hsteps := (isSteps_of_isDouble hv hpos).eq
  rcases steps_cases hv hpos hr h with ⟨hgrid, hm⟩ | ⟨hgrid, hlast, hm⟩
  · obtain ⟨hnear, htie⟩ := (stepsOf_eq_iff hr).mp hm
    rw [hgrid, ← hsteps] at hnear htie
    obtain ⟨hlow, hhigh⟩ := abs_le.mp hnear
    by_cases hlopsided : stepsOf v = 2 ^ 52 ∧ -1074 < gridOf v
    · have hfirst : v ≤ r := by
        have hle := gridOf_le hr (hgrid ▸ hlopsided.2)
        rw [hsteps, hlopsided.1, ← hgrid]
        exact_mod_cast hle
      have hreach := reach_pos (stepsOf v) (gridOf v)
      exact ⟨by linarith, by linarith, fun _ => by rw [hlopsided.1]; rfl⟩
    · rw [reach, if_neg hlopsided]
      refine ⟨by linarith, by linarith, fun hend => Nat.even_iff.mp (htie ?_)⟩
      rcases hend with rfl | rfl
      · rw [sub_sub_cancel_left, abs_neg, abs_of_pos (by positivity)]
      · rw [add_sub_cancel_left, abs_of_pos (by positivity)]
  · have hfine : -1074 < gridOf v := by
      have := le_gridOf r
      omega
    obtain ⟨hnear, -⟩ := (stepsOf_eq_iff hr).mp rfl
    rw [h, hgrid, two_zpow_sub_one] at hnear
    obtain ⟨hlow, hhigh⟩ := abs_le.mp hnear
    have hstep : (0 : ℚ) < 2 ^ gridOf v := by positivity
    rw [reach, if_pos ⟨hm, hfine⟩]
    exact ⟨by linarith, by linarith, fun _ => by rw [hm]; rfl⟩

/-- No member of the interval is as large as the first number that the grid of the double is too
fine for. -/
theorem lt_of_contains (hv : IsDouble v) (hpos : 0 < v) (h : (around v).contains r = true) :
    r < 2 ^ 53 * 2 ^ gridOf v := by
  have hsteps := isSteps_of_isDouble hv hpos
  have hstep : (0 : ℚ) < 2 ^ gridOf v := by positivity
  rw [contains_around_iff, around_eq] at h
  have hhigh := h.2.1
  dsimp only at hhigh
  have hlast : v ≤ (2 ^ 53 - 1) * 2 ^ gridOf v := by
    have hle : (stepsOf v : ℚ) + 1 ≤ 2 ^ 53 := by exact_mod_cast hsteps.lt
    calc v = stepsOf v * 2 ^ gridOf v := hsteps.eq
      _ ≤ (2 ^ 53 - 1) * 2 ^ gridOf v := by
          gcongr
          linarith
  linarith

/-- On the grid of the double the members of the interval are nearest to as many steps. -/
theorem stepsOf_eq_of_contains (hv : IsDouble v) (hpos : 0 < v) (hr : 0 < r)
    (hgrid : gridOf r = gridOf v) (h : (around v).contains r = true) : stepsOf r = stepsOf v := by
  rw [contains_around_iff, around_eq, decide_eq_true_iff] at h
  obtain ⟨hlow, hhigh, hend⟩ := h
  have hstep : (0 : ℚ) < 2 ^ gridOf v := by positivity
  have hreach := reach_le (stepsOf v) (gridOf v)
  rw [stepsOf_eq_iff hr, hgrid, ← (isSteps_of_isDouble hv hpos).eq]
  refine ⟨abs_le.mpr ⟨by linarith, by linarith⟩, fun htie => Nat.even_iff.mpr (hend ?_)⟩
  rcases eq_or_eq_neg_of_abs_eq htie with heq | heq
  · exact .inr (by linarith)
  · exact .inl (by linarith)

/-- Only the first double of a grid has members below the grid in its interval, and these are
nearest to the last step of the next finer one. -/
theorem steps_of_contains_below (hv : IsDouble v) (hpos : 0 < v) (hr : 0 < r)
    (hfine : -1074 < gridOf v) (hbelow : r < 2 ^ 52 * 2 ^ gridOf v)
    (h : (around v).contains r = true) :
    v = 2 ^ 52 * 2 ^ gridOf v ∧ gridOf r = gridOf v - 1 ∧ stepsOf r = 2 ^ 53 := by
  rw [contains_around_iff, around_eq] at h
  have hlow := h.1
  dsimp only at hlow
  have hsteps := isSteps_of_isDouble hv hpos
  have hstep : (0 : ℚ) < 2 ^ gridOf v := by positivity
  have hm : stepsOf v = 2 ^ 52 := by
    have hge := hsteps.le hfine
    have hlt : (stepsOf v : ℚ) * 2 ^ gridOf v < (2 ^ 52 + 1) * 2 ^ gridOf v := by
      have hreach := reach_le (stepsOf v) (gridOf v)
      rw [← hsteps.eq]
      linarith
    have : stepsOf v < 2 ^ 52 + 1 := by exact_mod_cast lt_of_mul_lt_mul_right hlt hstep.le
    omega
  have hv' := hsteps.eq_of_steps hm
  rw [reach, if_pos ⟨hm, hfine⟩] at hlow
  have hgrid : gridOf r = gridOf v - 1 := by
    apply gridOf_eq hr (by omega)
    · rw [two_zpow_sub_one]
      linarith
    · intro _
      rw [two_zpow_sub_one]
      linarith
  refine ⟨hv', hgrid, ?_⟩
  rw [stepsOf_eq_iff hr, hgrid, two_zpow_sub_one]
  refine ⟨abs_le.mpr ⟨?_, ?_⟩, fun _ => by decide⟩ <;> push_cast <;> linarith

private theorem steps_of_contains (hv : IsDouble v) (hpos : 0 < v) (hr : 0 < r)
    (h : (around v).contains r = true) : (stepsOf r : ℚ) * 2 ^ gridOf r = v := by
  have hsteps := isSteps_of_isDouble hv hpos
  by_cases hfirst : -1074 < gridOf v → 2 ^ 52 * 2 ^ gridOf v ≤ r
  · have hgrid : gridOf r = gridOf v :=
      gridOf_eq hr hsteps.exponent (lt_of_contains hv hpos h) hfirst
    rw [stepsOf_eq_of_contains hv hpos hr hgrid h, hgrid]
    exact hsteps.eq.symm
  · obtain ⟨hfine, hbelow⟩ := Classical.not_imp.mp hfirst
    obtain ⟨hv', hgrid, hm⟩ := steps_of_contains_below hv hpos hr hfine (not_le.mp hbelow) h
    rw [hm, hgrid, two_zpow_sub_one]
    push_cast
    linarith

/-- The numbers that are rounded to a positive double are those of its rounding interval. -/
theorem round_eq_finite_iff (hv : IsDouble v) (hpos : 0 < v) (hr : 0 < r) :
    round r = .finite v ↔ (around v).contains r = true := by
  rw [round_eq_finite_iff_steps hv hpos hr]
  exact ⟨contains_of_steps hv hpos hr, steps_of_contains hv hpos hr⟩

/-- A number that is rounded to a positive double is at least half of it. -/
theorem half_le_of_contains (hv : IsDouble v) (hpos : 0 < v) (h : (around v).contains r = true) :
    v / 2 ≤ r := by
  have hstep := (isSteps_of_isDouble hv hpos).step_le
  have hreach := reach_le (stepsOf v) (gridOf v)
  rw [contains_around_iff, around_eq] at h
  have hlow := h.1
  dsimp only at hlow
  linarith

theorem digits_ne_zero_of_contains (hv : IsDouble v) (hpos : 0 < v)
    {d : Decimal} (h : (around v).contains d.value = true) : d.digits ≠ 0 := by
  intro hzero
  have hvalue := (half_le_of_contains hv hpos h)
  rw [Decimal.value_eq, hzero, Nat.cast_zero, zero_mul] at hvalue
  linarith

theorem le_of_contains (hv : IsDouble v) (hpos : 0 < v) (h : (around v).contains r = true) :
    r ≤ 2 * v := by
  have hstep := (isSteps_of_isDouble hv hpos).step_le
  rw [contains_around_iff, around_eq] at h
  have hhigh := h.2.1
  dsimp only at hhigh
  linarith

end Double

end TermRules
