import TermRules.Proofs.Number.Nearest
import TermRules.Proofs.Number.Places

/-!
The shortest decimal of a double: it reads back as the double, no decimal that does has fewer
digits, and of those with as many none is nearer to the double. Seventeen digits always do. Of two
that are equally near either may be taken here.
-/

namespace TermRules

/-- The magnitude is large enough: the number lies below the next power of ten. -/
theorem lt_ten_zpow_decimalMagnitude {d : ℕ} (n : ℕ) (hd : 0 < d) :
    (n : ℚ) < d * 10 ^ (decimalMagnitude n d + 1) := by
  rw [decimalMagnitude]
  generalize hk : ((Nat.toDigits 10 n).length : ℤ) - (Nat.toDigits 10 d).length = k
  by_cases hbelow : (n : ℚ) < d * 10 ^ k
  · rwa [if_pos ((scaled_lt_iff (by decide)).mpr hbelow), sub_add_cancel]
  · rw [if_neg (mt (scaled_lt_iff (by decide)).mp hbelow)]
    have hn : (n : ℚ) < 10 ^ (Nat.toDigits 10 n).length := by
      exact_mod_cast lt_pow_length_toDigits n
    have hlength : 0 < (Nat.toDigits 10 d).length := Nat.length_toDigits_pos
    have hle : (10 : ℚ) ^ ((Nat.toDigits 10 d).length - 1) ≤ d := by
      exact_mod_cast pow_length_toDigits_le hd.ne'
    calc (n : ℚ) < 10 ^ (Nat.toDigits 10 n).length := hn
      _ = 10 ^ ((Nat.toDigits 10 d).length - 1) * 10 ^ (k + 1) := by
          rw [← zpow_natCast, ← zpow_natCast, ← zpow_add₀ (by norm_num)]
          congr 1
          omega
      _ ≤ d * 10 ^ (k + 1) := by gcongr

private theorem exists_first_of_findSome?_range {α : Type} {f : ℕ → Option α} {n : ℕ} {a : α}
    (h : (List.range n).findSome? f = some a) : ∃ k < n, f k = some a ∧ ∀ j < k, f j = none := by
  induction n with
  | zero => contradiction
  | succ n ih =>
      rw [List.range_succ, List.findSome?_append] at h
      cases hfront : (List.range n).findSome? f with
      | some b =>
          rw [hfront, Option.some_or] at h
          obtain ⟨k, hk, hfound⟩ := ih (hfront.trans h)
          exact ⟨k, Nat.lt_succ_of_lt hk, hfound⟩
      | none =>
          rw [hfront, Option.none_or, List.findSome?_singleton] at h
          refine ⟨n, Nat.lt_succ_self n, h, fun j hj => ?_⟩
          exact List.findSome?_eq_none_iff.mp hfront j (List.mem_range.mpr hj)

namespace Double

open RoundingInterval

variable {v s : ℚ} {n places : ℕ} {d e : Decimal}

/-- The last step of a grid that is not above `v`. -/
def stepBelow (v s : ℚ) : ℕ :=
  (v / s).floor.toNat

private theorem stepBelow_mul_le (hv : 0 < v) (hs : 0 < s) : stepBelow v s * s ≤ v := by
  have hnonneg : 0 ≤ (v / s).floor := by
    rw [Rat.le_floor_iff, Int.cast_zero]
    positivity
  rw [← le_div_iff₀ hs]
  calc (stepBelow v s : ℚ) = (v / s).floor := by exact_mod_cast Int.toNat_of_nonneg hnonneg
    _ ≤ v / s := Rat.floor_le _

private theorem lt_stepBelow_succ_mul (v : ℚ) (hs : 0 < s) : v < (stepBelow v s + 1 : ℕ) * s := by
  have hle : (v / s).floor + 1 ≤ ((stepBelow v s + 1 : ℕ) : ℤ) := by
    have := Int.self_le_toNat (v / s).floor
    rw [stepBelow]
    omega
  rw [← div_lt_iff₀ hs]
  calc v / s < ((v / s).floor + 1 : ℤ) := Rat.lt_floor_add_one _
    _ ≤ (stepBelow v s + 1 : ℕ) := by exact_mod_cast hle

/-- Of the steps below `v` the last one is nearest, and is rounded to `v` if any is. -/
theorem stepBelow_nearest (hv : 0 < v) (hs : 0 < s) (hn : n ≤ stepBelow v s)
    (h : (around v).contains (n * s) = true) :
    (around v).contains (stepBelow v s * s) = true ∧ |stepBelow v s * s - v| ≤ |n * s - v| := by
  have hle := stepBelow_mul_le hv hs
  have hmono : n * s ≤ stepBelow v s * s := by gcongr
  refine ⟨contains_of_between h (.inl ⟨hmono, hle⟩), ?_⟩
  rw [abs_of_nonpos (by linarith), abs_of_nonpos (by linarith)]
  linarith

private theorem stepAbove_nearest (hs : 0 < s) (hn : stepBelow v s < n)
    (h : (around v).contains (n * s) = true) :
    (around v).contains ((stepBelow v s + 1 : ℕ) * s) = true ∧
      |(stepBelow v s + 1 : ℕ) * s - v| ≤ |n * s - v| := by
  have hlt := lt_stepBelow_succ_mul v hs
  have hmono : (stepBelow v s + 1 : ℕ) * s ≤ n * s := by
    gcongr
    exact hn
  refine ⟨contains_of_between h (.inr ⟨hlt.le, hmono⟩), ?_⟩
  rw [abs_of_nonneg (by linarith), abs_of_nonneg (by linarith)]
  linarith

/-- The exponent of the grid on which `v` has the given number of digits. -/
def decimalGrid (v : ℚ) (places : ℕ) : ℤ :=
  decimalMagnitude v.num.natAbs v.den - places + 1

private theorem lt_ten_zpow (hv : 0 < v) : v < 10 ^ (decimalMagnitude v.num.natAbs v.den + 1) := by
  have hlt := lt_ten_zpow_decimalMagnitude v.num.natAbs v.den_pos
  have hden : (0 : ℚ) < v.den := by exact_mod_cast v.den_pos
  rw [natAbs_num_eq, abs_of_pos hv, mul_comm] at hlt
  exact lt_of_mul_lt_mul_left hlt hden.le

/-- On its grid `v` has the number of digits that the grid is for. -/
theorem le_decimalGrid (hv : 0 < v) (places : ℕ) :
    10 ^ places * (10 : ℚ) ^ decimalGrid v (places + 1) ≤ v := by
  refine le_of_eq_of_le ?_ (ten_zpow_le_of_pos hv)
  rw [← zpow_natCast, ← zpow_add₀ (by norm_num), decimalGrid]
  congr 1
  push_cast
  ring

private theorem lt_decimalGrid (hv : 0 < v) (places : ℕ) :
    v < 10 ^ (places + 1) * (10 : ℚ) ^ decimalGrid v (places + 1) := by
  refine (lt_ten_zpow hv).trans_eq ?_
  rw [← zpow_natCast, ← zpow_add₀ (by norm_num), decimalGrid]
  congr 1
  ring

section Neighbours

variable {interval : RoundingInterval} {a : ℕ} {p : ℤ}

/-- Nothing is taken only if neither neighbour of `v` on the grid belongs to the interval. -/
theorem not_contains_of_onGrid?_eq_none (hp : decimalGrid v places = p)
    (ha : stepBelow v (10 ^ p) = a) (h : onGrid? v interval places = none) :
    ¬ interval.contains (a * 10 ^ p) = true ∧
    ¬ interval.contains ((a + 1 : ℕ) * 10 ^ p) = true := by
  simp only [onGrid?, scaled_eq_div, Decimal.value_eq] at h
  rw [← decimalGrid, hp, ← stepBelow, ha] at h
  split at h
  · split at h
    · contradiction
    · split at h
      · contradiction
      · split at h <;> contradiction
  · contradiction
  · contradiction
  · simp_all

/-- A neighbour that belongs to the interval is taken, and the nearer one if both do. -/
theorem cases_of_onGrid?_eq_some (hp : decimalGrid v places = p) (ha : stepBelow v (10 ^ p) = a)
    (h : onGrid? v interval places = some d) :
    interval.contains d.value = true ∧
      (d = ⟨a, p⟩ ∧ (interval.contains ((a + 1 : ℕ) * 10 ^ p) = true → v / 10 ^ p - a ≤ 1 / 2) ∨
        d = ⟨a + 1, p⟩ ∧ (interval.contains (a * 10 ^ p) = true → 1 / 2 ≤ v / 10 ^ p - a)) := by
  simp only [onGrid?, scaled_eq_div, Decimal.value_eq] at h
  rw [← decimalGrid, hp, ← stepBelow, ha] at h
  rw [Decimal.value_eq]
  split at h
  · rename_i hbelow habove
    split at h
    · obtain rfl := Option.some.inj h
      exact ⟨hbelow, .inl ⟨rfl, fun _ => by linarith⟩⟩
    · split at h
      · obtain rfl := Option.some.inj h
        exact ⟨habove, .inr ⟨rfl, fun _ => by linarith⟩⟩
      · split at h
        · obtain rfl := Option.some.inj h
          exact ⟨hbelow, .inl ⟨rfl, fun _ => by linarith⟩⟩
        · obtain rfl := Option.some.inj h
          exact ⟨habove, .inr ⟨rfl, fun _ => by linarith⟩⟩
  · rename_i hbelow habove
    obtain rfl := Option.some.inj h
    exact ⟨hbelow,
      .inl ⟨rfl, fun hcontains => absurd (habove.symm.trans hcontains) Bool.false_ne_true⟩⟩
  · rename_i hbelow habove
    obtain rfl := Option.some.inj h
    exact ⟨habove,
      .inr ⟨rfl, fun hcontains => absurd (hbelow.symm.trans hcontains) Bool.false_ne_true⟩⟩
  · contradiction

end Neighbours

/-- A grid on which nothing is taken has no point that is rounded to `v`. -/
theorem empty_of_onGrid?_eq_none (hv : 0 < v) (h : onGrid? v (around v) places = none) (n : ℕ) :
    ¬ (around v).contains (n * 10 ^ decimalGrid v places) = true := by
  intro hn
  have hs : (0 : ℚ) < 10 ^ decimalGrid v places := by positivity
  obtain ⟨hbelow, habove⟩ := not_contains_of_onGrid?_eq_none rfl rfl h
  rcases le_or_gt n (stepBelow v (10 ^ decimalGrid v places)) with hle | hgt
  · exact hbelow (stepBelow_nearest hv hs hle hn).1
  · exact habove (stepAbove_nearest hs hgt hn).1

/-- No point of the grid that is rounded to `v` is nearer to `v` than the one taken. -/
theorem nearest_of_onGrid?_eq_some (hv : 0 < v) (h : onGrid? v (around v) places = some d)
    (hn : (around v).contains (n * 10 ^ decimalGrid v places) = true) :
    |d.value - v| ≤ |n * 10 ^ decimalGrid v places - v| := by
  have hs : (0 : ℚ) < 10 ^ decimalGrid v places := by positivity
  obtain ⟨-, htaken⟩ := cases_of_onGrid?_eq_some rfl rfl h
  have hvalue (a : ℕ) :
    (⟨a, decimalGrid v places⟩ : Decimal).value = a * 10 ^ decimalGrid v places :=
    Decimal.value_eq _
  generalize (10 : ℚ) ^ decimalGrid v places = s at hs hn htaken hvalue ⊢
  have hbelow := stepBelow_mul_le hv hs
  have habove := lt_stepBelow_succ_mul v hs
  have hgap : v / s - stepBelow v s = (v - stepBelow v s * s) / s := by
    rw [sub_div, mul_div_cancel_right₀ _ hs.ne']
  rw [hgap, div_le_iff₀ hs, le_div_iff₀ hs] at htaken
  rcases htaken with ⟨rfl, hnearer⟩ | ⟨rfl, hnearer⟩ <;> rw [hvalue]
  · rcases le_or_gt n (stepBelow v s) with hle | hgt
    · exact (stepBelow_nearest hv hs hle hn).2
    · obtain ⟨hmem, hle⟩ := stepAbove_nearest hs hgt hn
      refine le_trans ?_ hle
      have hhalf := hnearer hmem
      rw [abs_of_nonpos (by linarith), abs_of_nonneg (by linarith)]
      push_cast
      linarith
  · rcases le_or_gt n (stepBelow v s) with hle | hgt
    · obtain ⟨hmem, hle⟩ := stepBelow_nearest hv hs hle hn
      refine le_trans ?_ hle
      have hhalf := hnearer hmem
      rw [abs_of_nonneg (by linarith), abs_of_nonpos (by linarith)]
      push_cast
      linarith
    · exact (stepAbove_nearest hs hgt hn).2

/-- Seventeen digits tell all doubles apart: a step of that grid is shorter than the
rounding interval. -/
theorem exists_onGrid?_seventeen (hv : IsDouble v) (hpos : 0 < v) :
    ∃ d, onGrid? v (around v) 17 = some d := by
  rw [← Option.ne_none_iff_exists']
  intro hnone
  obtain ⟨hbelow, habove⟩ := not_contains_of_onGrid?_eq_none rfl rfl hnone
  have hten := le_decimalGrid hpos 16
  have hs : (0 : ℚ) < 10 ^ decimalGrid v 17 := by positivity
  have hfloor := stepBelow_mul_le hpos hs
  have hceil := lt_stepBelow_succ_mul v hs
  have hlow := around_low_lt v
  have hhigh := lt_around_high v
  have hsteps := isSteps_of_isDouble hv hpos
  have hlt := lt_gridOf hpos
  have hsucc : (stepBelow v (10 ^ decimalGrid v 17) + 1 : ℕ) * (10 : ℚ) ^ decimalGrid v 17 =
      stepBelow v (10 ^ decimalGrid v 17) * 10 ^ decimalGrid v 17 + 10 ^ decimalGrid v 17 := by
    push_cast
    ring
  rw [hsucc] at hceil habove
  generalize (10 : ℚ) ^ decimalGrid v 17 = s at *
  generalize (stepBelow v s : ℚ) * s = below at *
  by_cases hlopsided : stepsOf v = 2 ^ 52 ∧ -1074 < gridOf v
  · -- The interval reaches less far below, but the steps are at most half as long.
    have hv' := hsteps.eq_of_steps hlopsided.1
    refine habove (contains_of_lt (hlow.trans hceil) ?_)
    rw [around_eq]
    dsimp only
    linarith
  · rcases lt_or_ge (v - below) (2 ^ gridOf v / 2) with hnear | hfar
    · refine hbelow (contains_of_lt ?_ (hfloor.trans_lt hhigh))
      rw [around_eq, reach, if_neg hlopsided]
      dsimp only
      linarith
    · refine habove (contains_of_lt (hlow.trans hceil) ?_)
      rw [around_eq]
      dsimp only
      linarith

/-- The grid on which `v` has as many digits as a decimal has a point between the two. -/
theorem exists_between (hv : 0 < v) (d : Decimal) :
    ∃ n : ℕ, (d.value ≤ n * 10 ^ decimalGrid v d.size ∧ n * 10 ^ decimalGrid v d.size ≤ v) ∨
      (v ≤ n * 10 ^ decimalGrid v d.size ∧ n * 10 ^ decimalGrid v d.size ≤ d.value) := by
  have hfirst := ten_zpow_le_of_pos hv
  generalize hM : decimalMagnitude v.num.natAbs v.den = M at hfirst
  have hgrid : decimalGrid v d.size = M - d.size + 1 := by rw [decimalGrid, hM]
  rcases le_or_gt ((10 : ℚ) ^ M) d.value with hge | hlt
  · -- The decimal is a point of the grid itself.
    have hexponent : decimalGrid v d.size ≤ d.exponent := by
      have := (zpow_lt_zpow_iff_right₀ (by norm_num)).mp (hge.trans_lt d.value_lt)
      omega
    refine ⟨d.digits * 10 ^ (d.exponent - decimalGrid v d.size).toNat, ?_⟩
    have hpoint : ((d.digits * 10 ^ (d.exponent - decimalGrid v d.size).toNat : ℕ) : ℚ) *
        10 ^ decimalGrid v d.size = d.value := by
      rw [Nat.cast_mul, cast_pow_toNat 10 (by omega), mul_assoc, Nat.cast_ofNat,
        ← zpow_add₀ (by norm_num), sub_add_cancel, Decimal.value_eq]
    rw [hpoint]
    rcases le_total d.value v with hle | hle
    · exact .inl ⟨le_rfl, hle⟩
    · exact .inr ⟨hle, le_rfl⟩
  · have hpoint : ((10 ^ (d.size - 1) : ℕ) : ℚ) * 10 ^ decimalGrid v d.size = 10 ^ M := by
      have hsize := d.size_pos
      rw [Nat.cast_pow, Nat.cast_ofNat, ← zpow_natCast, ← zpow_add₀ (by norm_num), hgrid]
      congr 1
      omega
    refine ⟨10 ^ (d.size - 1), .inl ?_⟩
    rw [hpoint]
    exact ⟨hlt.le, hfirst⟩

private theorem exists_contained_between (hv : 0 < v) (h : (around v).contains d.value = true) :
    ∃ n : ℕ, (around v).contains (n * 10 ^ decimalGrid v d.size) = true ∧
      |n * 10 ^ decimalGrid v d.size - v| ≤ |d.value - v| := by
  obtain ⟨n, hbetween⟩ := exists_between hv d
  refine ⟨n, contains_of_between h hbetween, ?_⟩
  rcases hbetween with ⟨hfrom, hto⟩ | ⟨hto, hfrom⟩
  · rw [abs_of_nonpos (by linarith), abs_of_nonpos (by linarith)]
    linarith
  · rw [abs_of_nonneg (by linarith), abs_of_nonneg (by linarith)]
    linarith

/-- Without trailing zeros, what is taken on a grid has no more digits than `v` has on it. -/
theorem strip_size_le_of_onGrid? (hpos : 0 < v) (hzero : d.digits ≠ 0)
    (h : onGrid? v (around v) (places + 1) = some d) : d.strip.size ≤ places + 1 := by
  have hs : (0 : ℚ) < 10 ^ decimalGrid v (places + 1) := by positivity
  have hfloor : stepBelow v (10 ^ decimalGrid v (places + 1)) < 10 ^ (places + 1) := by
    have hlt := (stepBelow_mul_le hpos hs).trans_lt (lt_decimalGrid hpos places)
    exact_mod_cast lt_of_mul_lt_mul_right hlt hs.le
  obtain ⟨-, htaken⟩ := cases_of_onGrid?_eq_some rfl rfl h
  have hle : d.digits ≤ 10 ^ (places + 1) := by
    rcases htaken with ⟨rfl, -⟩ | ⟨rfl, -⟩
    · exact hfloor.le
    · exact hfloor
  rcases hle.lt_or_eq with hlt | heq
  · exact (Decimal.strip_size_le hzero rfl).trans ((Decimal.size_le_iff (Nat.succ_pos _)).mpr hlt)
  · have hone : (⟨1, d.exponent + (places + 1 : ℕ)⟩ : Decimal).value = d.value := by
      rw [Decimal.value_eq, Decimal.value_eq, heq, zpow_add₀ (by norm_num), zpow_natCast]
      push_cast
      ring
    exact (Decimal.strip_size_le hzero hone).trans
      ((Decimal.size_le_iff (Nat.succ_pos _)).mpr (Nat.one_lt_pow (Nat.succ_ne_zero _) (by decide)))

/-- The shortest decimal is what the first grid gives on which anything is taken, and no decimal
with fewer digits than that grid is rounded to `v`. -/
theorem exists_first_grid (hv : IsDouble v) (hpos : 0 < v) :
    ∃ k d, onGrid? v (around v) (k + 1) = some d ∧ k < 17 ∧ shortest v = d.strip ∧
      (shortest v).size ≤ k + 1 ∧ (around v).contains d.value = true ∧
      ∀ e : Decimal, (around v).contains e.value = true → k < e.size := by
  obtain ⟨last, hlast⟩ := exists_onGrid?_seventeen hv hpos
  cases hfound : (List.range 17).findSome? fun k => onGrid? v (around v) (k + 1) with
  | none =>
      have := List.findSome?_eq_none_iff.mp hfound 16 (by decide)
      rw [hlast] at this
      contradiction
  | some d =>
      obtain ⟨k, hk, hd, hbefore⟩ := exists_first_of_findSome?_range hfound
      have hshortest : shortest v = d.strip := by rw [shortest, hfound, Option.getD_some]
      obtain ⟨hcontains, -⟩ := cases_of_onGrid?_eq_some rfl rfl hd
      refine ⟨k, d, hd, hk, hshortest, ?_, hcontains, fun e he => ?_⟩
      · rw [hshortest]
        exact strip_size_le_of_onGrid? hpos (digits_ne_zero_of_contains hv hpos hcontains) hd
      · by_contra hlt
        obtain ⟨n, hn, -⟩ := exists_contained_between hpos he
        have hsize := e.size_pos
        have hnone := hbefore (e.size - 1) (by omega)
        rw [Nat.sub_add_cancel hsize] at hnone
        exact empty_of_onGrid?_eq_none hpos hnone n hn

theorem contains_shortest (hv : IsDouble v) (hpos : 0 < v) :
    (around v).contains (shortest v).value = true := by
  obtain ⟨k, d, -, -, hshortest, -, hcontains, -⟩ := exists_first_grid hv hpos
  rwa [hshortest, Decimal.strip_value]

theorem shortest_size_le_seventeen (hv : IsDouble v) (hpos : 0 < v) : (shortest v).size ≤ 17 := by
  obtain ⟨k, d, -, hk, -, hsize, -, -⟩ := exists_first_grid hv hpos
  omega

/-- No decimal that is rounded to `v` has fewer digits than the shortest. -/
theorem shortest_size_le (hv : IsDouble v) (hpos : 0 < v) (h : (around v).contains e.value = true) :
    (shortest v).size ≤ e.size := by
  obtain ⟨k, d, -, -, -, hsize, -, hmin⟩ := exists_first_grid hv hpos
  exact hsize.trans (hmin e h)

/-- Of the decimals that are rounded to `v` and as short, none is nearer to `v`. -/
theorem shortest_nearest (hv : IsDouble v) (hpos : 0 < v) (h : (around v).contains e.value = true)
    (hsize : e.size ≤ (shortest v).size) : |(shortest v).value - v| ≤ |e.value - v| := by
  obtain ⟨k, d, hd, -, hshortest, hle, -, hmin⟩ := exists_first_grid hv hpos
  obtain ⟨n, hn, hnear⟩ := exists_contained_between hpos h
  have hgrid : e.size = k + 1 := by
    have := hmin e h
    omega
  rw [hgrid] at hn hnear
  rw [hshortest, Decimal.strip_value]
  exact (nearest_of_onGrid?_eq_some hpos hd hn).trans hnear

end Double

end TermRules
