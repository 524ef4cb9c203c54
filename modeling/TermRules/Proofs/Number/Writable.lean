import Mathlib.Tactic.Linarith
import TermRules.Proofs.Number.Magnitude

/-!
Numbers that can be written out: whole numbers with no more digits than are read, and all
doubles. The shortest decimal of a double is of its size, so that each of these numbers has a
count of decimal places. That the decimal reads back as the double, and what the count is, is
not settled here.
-/

namespace TermRules

theorem pow_length_toDigits_le {n : ℕ} (hn : n ≠ 0) :
    10 ^ ((Nat.toDigits 10 n).length - 1) ≤ n := by
  rcases Nat.eq_zero_or_pos ((Nat.toDigits 10 n).length - 1) with hlength | hlength
  · rw [hlength, pow_zero]
    exact Nat.one_le_iff_ne_zero.mpr hn
  · by_contra hlt
    have hle : (Nat.toDigits 10 n).length ≤ (Nat.toDigits 10 n).length - 1 :=
      (Nat.length_toDigits_le_iff (by decide) hlength).mpr (not_le.mp hlt)
    omega

theorem lt_pow_length_toDigits (n : ℕ) : n < 10 ^ (Nat.toDigits 10 n).length :=
  (Nat.length_toDigits_le_iff (by decide) Nat.length_toDigits_pos).mp le_rfl

/-- The magnitude is small enough: its power of ten is no larger than the number. -/
theorem ten_zpow_decimalMagnitude_le {n : ℕ} (hn : n ≠ 0) (d : ℕ) :
    (d : ℚ) * 10 ^ decimalMagnitude n d ≤ n := by
  rw [decimalMagnitude]
  generalize hk : ((Nat.toDigits 10 n).length : ℤ) - (Nat.toDigits 10 d).length = k
  by_cases hbelow : (n : ℚ) < d * 10 ^ k
  · rw [if_pos ((scaled_lt_iff (by decide)).mpr hbelow)]
    have hd : (d : ℚ) ≤ 10 ^ (Nat.toDigits 10 d).length := by
      exact_mod_cast (lt_pow_length_toDigits d).le
    have hlength : 0 < (Nat.toDigits 10 n).length := Nat.length_toDigits_pos
    calc (d : ℚ) * 10 ^ (k - 1)
        ≤ 10 ^ (Nat.toDigits 10 d).length * 10 ^ (k - 1) := by gcongr
      _ = 10 ^ ((Nat.toDigits 10 n).length - 1) := by
          rw [← zpow_natCast, ← zpow_natCast, ← zpow_add₀ (by norm_num)]
          congr 1
          omega
      _ ≤ n := by exact_mod_cast pow_length_toDigits_le hn
  · rw [if_neg (mt (scaled_lt_iff (by decide)).mp hbelow)]
    exact not_lt.mp hbelow

namespace Decimal

variable {d : Decimal}

theorem value_eq (d : Decimal) : d.value = d.digits * 10 ^ d.exponent :=
  scaled_eq 10 d.digits d.exponent

private theorem stripUpTo_value (fuel : ℕ) (d : Decimal) : (stripUpTo fuel d).value = d.value := by
  induction fuel generalizing d with
  | zero => rfl
  | succ fuel ih =>
      rw [stripUpTo]
      split
      · rename_i hzero
        have hdigits : (d.digits : ℚ) = 10 * (d.digits / 10 : ℕ) := by
          exact_mod_cast (Nat.mul_div_cancel' (Nat.dvd_of_mod_eq_zero hzero)).symm
        rw [ih, value_eq, value_eq, hdigits, zpow_add_one₀ (by norm_num)]
        ring
      · rfl

theorem strip_value (d : Decimal) : d.strip.value = d.value := by
  rw [strip]
  split
  · rename_i hzero
    simp [value_eq, hzero]
  · exact stripUpTo_value _ d

private theorem places?_of_value_lt {k : ℤ} (hk : k ≤ largest) (h : d.value < 10 ^ k) :
    ∃ n, d.places? = some n := by
  rw [places?]
  split
  · exact ⟨0, rfl⟩
  · rename_i hdigits
    have hle : (10 : ℚ) ^ (((Nat.toDigits 10 d.digits).length : ℤ) - 1 + d.exponent) ≤ d.value := by
      have hlength : 0 < (Nat.toDigits 10 d.digits).length := Nat.length_toDigits_pos
      have hcast : ((Nat.toDigits 10 d.digits).length : ℤ) - 1 =
          (((Nat.toDigits 10 d.digits).length - 1 : ℕ) : ℤ) := by
        omega
      rw [value_eq, zpow_add₀ (by norm_num), hcast, zpow_natCast]
      gcongr
      exact_mod_cast pow_length_toDigits_le hdigits
    have hlt : ((Nat.toDigits 10 d.digits).length : ℤ) - 1 + d.exponent < k :=
      (zpow_lt_zpow_iff_right₀ (by norm_num)).mp (hle.trans_lt h)
    rw [if_neg (by omega)]
    exact ⟨_, rfl⟩

end Decimal

namespace Double

variable {v : ℚ} {interval : RoundingInterval} {places : ℕ} {d : Decimal}

theorem ten_zpow_le_of_pos (hv : 0 < v) : (10 : ℚ) ^ decimalMagnitude v.num.natAbs v.den ≤ v := by
  have hnum : v.num.natAbs ≠ 0 := Int.natAbs_ne_zero.mpr (Rat.num_pos.mpr hv).ne'
  have hle := ten_zpow_decimalMagnitude_le hnum v.den
  have hv' : v * v.den = v.num.natAbs := by
    rw [Rat.mul_den_eq_num, ← Int.cast_natCast, Int.natAbs_of_nonneg (Rat.num_nonneg.mpr hv.le)]
  have hden : (0 : ℚ) < v.den := by exact_mod_cast v.den_pos
  rw [← hv', mul_comm v] at hle
  exact le_of_mul_le_mul_left hle hden

theorem scaled_eq_div (v : ℚ) (p : ℤ) :
    (if 0 ≤ p then v / (Nat.pow 10 p.toNat : ℚ) else v * (Nat.pow 10 (-p).toNat : ℚ)) =
      v / 10 ^ p := by
  split
  · rename_i hp
    exact congrArg (v / ·) (cast_pow_toNat 10 hp)
  · rename_i hp
    rw [div_eq_mul_inv]
    exact congrArg (v * ·) (cast_pow_toNat_neg 10 (not_le.mp hp))

/-- A neighbour on the grid has the exponent of the grid, and at most one step more than
fit below. -/
theorem digits_le_of_onGrid? (h : onGrid? v interval places = some d) :
    d.exponent = decimalMagnitude v.num.natAbs v.den - places + 1 ∧
      d.digits ≤ (v / 10 ^ d.exponent).floor.toNat + 1 := by
  simp only [onGrid?, scaled_eq_div] at h
  generalize decimalMagnitude v.num.natAbs v.den - places + 1 = p at h ⊢
  have hcases : d = ⟨(v / 10 ^ p).floor.toNat, p⟩ ∨ d = ⟨(v / 10 ^ p).floor.toNat + 1, p⟩ := by
    split at h
    · split at h
      · exact .inl (Option.some.inj h).symm
      · split at h
        · exact .inr (Option.some.inj h).symm
        · split at h
          · exact .inl (Option.some.inj h).symm
          · exact .inr (Option.some.inj h).symm
    · exact .inl (Option.some.inj h).symm
    · exact .inr (Option.some.inj h).symm
    · contradiction
  rcases hcases with rfl | rfl
  · exact ⟨rfl, Nat.le_succ _⟩
  · exact ⟨rfl, le_rfl⟩

/-- The steps of the grid are no larger than the number, so that its neighbours are not far
above it. -/
theorem value_le_of_onGrid? (hv : 0 < v) (h : onGrid? v interval (places + 1) = some d) :
    d.value ≤ 2 * v := by
  obtain ⟨hexponent, hdigits⟩ := digits_le_of_onGrid? h
  have hstep : (10 : ℚ) ^ d.exponent ≤ v := by
    refine le_trans ?_ (ten_zpow_le_of_pos hv)
    rw [hexponent]
    gcongr
    · norm_num
    · push_cast
      omega
  have hfloor : ((v / 10 ^ d.exponent).floor.toNat : ℚ) ≤ v / 10 ^ d.exponent := by
    have hnonneg : 0 ≤ (v / 10 ^ d.exponent).floor := by
      rw [Rat.le_floor_iff, Int.cast_zero]
      positivity
    calc ((v / 10 ^ d.exponent).floor.toNat : ℚ) = ((v / 10 ^ d.exponent).floor : ℚ) := by
          exact_mod_cast Int.toNat_of_nonneg hnonneg
      _ ≤ v / 10 ^ d.exponent := Rat.floor_le _
  calc d.value = d.digits * 10 ^ d.exponent := d.value_eq
    _ ≤ (v / 10 ^ d.exponent + 1) * 10 ^ d.exponent := by
        gcongr
        have hcast : (d.digits : ℚ) ≤ (v / 10 ^ d.exponent).floor.toNat + 1 := by
          exact_mod_cast hdigits
        linarith
    _ = v + 10 ^ d.exponent := by
        rw [add_mul, one_mul, div_mul_cancel₀]
        positivity
    _ ≤ 2 * v := by linarith

private theorem value_shortest_le (hv : 0 < v) : (shortest v).value ≤ 2 * v := by
  rw [shortest, Decimal.strip_value]
  cases hfound :
    (List.range 17).findSome? fun k => onGrid? v (RoundingInterval.around v) (k + 1) with
  | none =>
      simp only [Option.getD_none, Decimal.value_eq, Nat.cast_zero, zero_mul]
      positivity
  | some d =>
      obtain ⟨k, -, hk⟩ := List.exists_of_findSome?_eq_some hfound
      exact value_le_of_onGrid? hv hk

private theorem places?_of_abs_lt {q : ℚ} (h : |q| < 2 ^ (1024 : ℤ)) :
    ∃ n, (finite q).places? = some n := by
  rw [places?]
  apply Decimal.places?_of_value_lt (show (1025 : ℤ) ≤ Decimal.largest by decide)
  split
  · rw [Decimal.value_eq, Nat.cast_zero, zero_mul]
    positivity
  · rename_i hzero
    have habs : (if q < 0 then -q else q) = |q| := by
      split
      · rename_i hneg
        exact (abs_of_neg hneg).symm
      · rename_i hneg
        exact (abs_of_nonneg (not_lt.mp hneg)).symm
    rw [habs]
    calc (shortest |q|).value ≤ 2 * |q| := value_shortest_le (abs_pos.mpr hzero)
      _ < 2 * 2 ^ (1024 : ℤ) := by gcongr
      _ = 2 ^ (1025 : ℤ) := (zpow_one_add₀ two_ne_zero 1024).symm
      _ ≤ 10 ^ (1025 : ℤ) := zpow_le_zpow_left₀ (by decide) two_pos.le (by norm_num)

end Double

namespace Number

/-- A whole number with no more digits than are read, or a double. -/
def IsWritable : Number → Prop
  | .int n => (Nat.toDigits 10 n.natAbs).length ≤ digitLimit
  | .double d => d.OnGrid

theorem IsWritable.places? {x : Number} (h : x.IsWritable) : ∃ n, x.places? = some n := by
  cases x with
  | int n =>
      rw [Number.places?, Decimal.places?]
      split
      · exact ⟨0, rfl⟩
      · have hlength : (Nat.toDigits 10 n.natAbs).length ≤ 4300 := h
        rw [if_neg (by rw [Decimal.largest]; dsimp only; omega)]
        exact ⟨_, rfl⟩
  | double d =>
      cases d with
      | nan | infinite negative | negativeZero => exact ⟨0, rfl⟩
      | finite q =>
          obtain ⟨p, hp⟩ := h q rfl
          exact Double.places?_of_abs_lt (abs_lt_of_round_eq_finite hp)

end Number

namespace Reading

open Text

private theorem ofDigits_append_singleton (ds : List ℕ) (d : ℕ) :
    ofDigits (ds ++ [d]) = 10 * ofDigits ds + d := by
  rw [ofDigits, List.foldl_append]
  rfl

private theorem ofDigits_lt {ds : List ℕ} (h : ∀ d ∈ ds, d < 10) :
    ofDigits ds < 10 ^ ds.length := by
  induction ds using List.reverseRecOn with
  | nil => decide
  | append_singleton ds d ih =>
      have hds := ih fun e he => h e (List.mem_append_left [d] he)
      have hd := h d (by simp)
      rw [ofDigits_append_singleton, List.length_append, List.length_singleton, pow_succ]
      omega

private theorem asciiDigit?_lt {c : Char} {d : ℕ} (h : asciiDigit? c = some d) : d < 10 := by
  rw [asciiDigit?] at h
  split at h
  · rename_i hc
    obtain rfl := Option.some.inj h
    have hle : c.toNat ≤ '9'.toNat := hc.2
    have hnine : '9'.toNat = 57 := rfl
    have hzero : '0'.toNat = 48 := rfl
    omega
  · contradiction

/-- A text with too many digits is not read, and what else is read is a double. -/
theorem isWritable_of_number? {s : String} {x : Number} (h : number? s = some x) :
    x.IsWritable := by
  cases x with
  | double d => exact onGrid_of_number? h
  | int n =>
      simp only [number?] at h
      split at h
      · split at h
        · contradiction
        · rename_i hlimit
          generalize (splitSign ((trim s.toList).map toAsciiDigit)).2 = digits at h hlimit
          have hlt : ofDigits (digits.filterMap asciiDigit?) < 10 ^ digitLimit := by
            have hdigits : ∀ d ∈ digits.filterMap asciiDigit?, d < 10 := by
              intro d hd
              obtain ⟨c, -, hc⟩ := List.mem_filterMap.mp hd
              exact asciiDigit?_lt hc
            refine (ofDigits_lt hdigits).trans_le (Nat.pow_le_pow_right (by decide) ?_)
            exact (List.length_filterMap_le _ _).trans (not_lt.mp hlimit)
          have hn : n.natAbs = ofDigits (digits.filterMap asciiDigit?) := by
            obtain rfl := Number.int.inj (Option.some.inj h)
            split
            · exact Int.natAbs_neg _
            · rfl
          exact (Nat.length_toDigits_le_iff (by decide) (by decide)).mpr (hn ▸ hlt)
      · obtain ⟨joined, -, hd⟩ := Option.bind_eq_some_iff.mp h
        obtain ⟨e, -, he⟩ := Option.map_eq_some_iff.mp hd
        contradiction

end Reading

end TermRules
