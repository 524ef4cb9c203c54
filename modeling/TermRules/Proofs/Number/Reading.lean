import TermRules.Proofs.Number.Nearest
import TermRules.Proofs.Number.Places

/-!
How numerals are read. A numeral spells a decimal, and reading finds just this decimal: as a whole
number if the numeral is digits alone, and as a double otherwise. A decimal reads as a double just
if it is rounded to it; the exponents at which reading does not round are out of the range of
doubles. Numerals in other scripts, with low lines or with blanks around them are read as well;
nothing is said of them here.
-/

namespace TermRules

namespace Text

variable {c : Char} {cs : List Char}

private theorem asciiDigit?_eq (c : Char) :
    asciiDigit? c = if c.isDigit = true then some (c.toNat - '0'.toNat) else none := by
  have hiff : ('0' ≤ c ∧ c ≤ '9') ↔ c.isDigit = true := Char.isDigit_iff_toNat.symm
  simp only [asciiDigit?, hiff]

private theorem asciiDigit?_eq_some (h : c.isDigit = true) :
    asciiDigit? c = some (c.toNat - '0'.toNat) := by
  rw [asciiDigit?_eq, if_pos h]

private theorem isAsciiDigit_eq (c : Char) : isAsciiDigit c = c.isDigit := by
  rw [isAsciiDigit, asciiDigit?_eq]
  cases c.isDigit <;> rfl

private theorem filterMap_asciiDigit? (h : ∀ c ∈ cs, c.isDigit = true) :
    cs.filterMap asciiDigit? = cs.map fun c => c.toNat - '0'.toNat := by
  rw [← List.filterMap_eq_map]
  exact List.filterMap_congr fun c hc => asciiDigit?_eq_some (h c hc)

private theorem ofDigits_filterMap (h : ∀ c ∈ cs, c.isDigit = true) :
    ofDigits (cs.filterMap asciiDigit?) = Nat.ofDigitChars 10 cs 0 := by
  rw [filterMap_asciiDigit? h, ofDigits, List.foldl_map, Nat.ofDigitChars_eq_foldl]

end Text

/-- Characters all of which are digits. -/
def AllDigits (cs : List Char) : Prop :=
  ∀ c ∈ cs, c.isDigit = true

instance (cs : List Char) : Decidable (AllDigits cs) :=
  decidable_of_iff (cs.all Char.isDigit = true) List.all_eq_true

theorem AllDigits.append {cs ds : List Char} (hcs : AllDigits cs) (hds : AllDigits ds) :
    AllDigits (cs ++ ds) :=
  List.forall_mem_append.mpr ⟨hcs, hds⟩

theorem allDigits_toDigits (n : ℕ) : AllDigits (Nat.toDigits 10 n) :=
  fun _ hc => Nat.isDigit_of_mem_toDigits (by decide) (by decide) hc

theorem allDigits_zeros (n : ℕ) : AllDigits (List.replicate n '0') := by
  intro c hc
  rw [List.eq_of_mem_replicate hc]
  rfl

/-- What may stand behind the digits of a numeral: nothing, or an exponent with a sign. -/
inductive SpellsExponent : List Char → ℤ → Prop
  | none : SpellsExponent [] 0
  | positive (ds : List Char) (digits : AllDigits ds) (nonempty : ds ≠ []) :
      SpellsExponent ('e' :: '+' :: ds) (Nat.ofDigitChars 10 ds 0)
  | negative (ds : List Char) (digits : AllDigits ds) (nonempty : ds ≠ []) :
      SpellsExponent ('e' :: '-' :: ds) (-(Nat.ofDigitChars 10 ds 0 : ℤ))

/-- A numeral without a sign, and the decimal that it stands for: digits, perhaps a point with more
digits behind it, perhaps an exponent. -/
inductive Spells : List Char → Decimal → Prop
  | whole {ds rest : List Char} {e : ℤ} (digits : AllDigits ds) (nonempty : ds ≠ [])
      (exponent : SpellsExponent rest e) : Spells (ds ++ rest) ⟨Nat.ofDigitChars 10 ds 0, e⟩
  | point {ds fs rest : List Char} {e : ℤ} (digits : AllDigits ds) (nonempty : ds ≠ [])
      (fraction : AllDigits fs) (exponent : SpellsExponent rest e) :
      Spells (ds ++ '.' :: (fs ++ rest)) ⟨Nat.ofDigitChars 10 (ds ++ fs) 0, e - fs.length⟩

namespace Reading

open Text

variable {c : Char} {cs ds fs rest : List Char} {e : ℤ} {d : Decimal}

/-- No digit stands in front. -/
def Stops (rest : List Char) : Prop :=
  ∀ c ∈ rest.head?, isAsciiDigit c = false

private theorem spanDigits_append (h : AllDigits cs) (hrest : Stops rest) :
    spanDigits (cs ++ rest) = (cs.filterMap asciiDigit?, rest) := by
  have hdigits : ∀ c ∈ cs, isAsciiDigit c = true := fun c hc => (isAsciiDigit_eq c).trans (h c hc)
  have htake : rest.takeWhile isAsciiDigit = [] := by
    cases rest with
    | nil => rfl
    | cons c rest => simp [hrest c rfl]
  have hdrop : rest.dropWhile isAsciiDigit = rest := by
    cases rest with
    | nil => rfl
    | cons c rest => simp [hrest c rfl]
  rw [spanDigits, List.takeWhile_append_of_pos hdigits, htake, List.append_nil,
    List.dropWhile_append_of_pos hdigits, hdrop]

private theorem exists_cons_filterMap (h : AllDigits ds) (hne : ds ≠ []) :
    ∃ n ns, ds.filterMap asciiDigit? = n :: ns := by
  rw [← List.ne_nil_iff_exists_cons, filterMap_asciiDigit? h]
  exact mt List.map_eq_nil_iff.mp hne

private theorem exponent?_of_digits (h : AllDigits ds) (hne : ds ≠ []) (sign : Char)
    (hsign : sign = '+' ∨ sign = '-') :
    exponent? ('e' :: sign :: ds) = some (if sign = '-' then -(Nat.ofDigitChars 10 ds 0 : ℤ)
      else Nat.ofDigitChars 10 ds 0) := by
  have hspan : spanDigits ds = (ds.filterMap asciiDigit?, []) := by
    have hnil : Stops [] := nofun
    simpa using spanDigits_append h hnil
  have hvalue := ofDigits_filterMap h
  obtain ⟨n, ns, hcons⟩ := exists_cons_filterMap h hne
  rw [hcons] at hspan hvalue
  rcases hsign with rfl | rfl <;> simp [exponent?, splitSign, hspan, hvalue]

private theorem exponent?_of_spells (h : SpellsExponent rest e) :
    exponent? rest = some e ∧ Stops rest ∧ rest.head? ≠ some '.' := by
  cases h with
  | none => exact ⟨rfl, nofun, nofun⟩
  | positive ds digits nonempty =>
      refine ⟨?_, by rintro _ ⟨⟩; decide, by simp⟩
      exact exponent?_of_digits digits nonempty '+' (.inl rfl)
  | negative ds digits nonempty =>
      refine ⟨?_, by rintro _ ⟨⟩; decide, by simp⟩
      exact exponent?_of_digits digits nonempty '-' (.inr rfl)

theorem decimal?_of_spells (h : Spells cs d) : decimal? cs = some d := by
  cases h with
  | @whole ds rest e digits nonempty exponent =>
      obtain ⟨hexponent, hstops, hpoint⟩ := exponent?_of_spells exponent
      have hvalue := ofDigits_filterMap digits
      obtain ⟨n, ns, hcons⟩ := exists_cons_filterMap digits nonempty
      rw [hcons] at hvalue
      simp only [decimal?, spanDigits_append digits hstops, hcons]
      split
      · simp at hpoint
      · simp [hexponent, hvalue]
  | @point ds fs rest e digits nonempty fraction exponent =>
      obtain ⟨hexponent, hstops, -⟩ := exponent?_of_spells exponent
      have hpoint : Stops ('.' :: (fs ++ rest)) := by
        rintro _ ⟨⟩
        decide
      have hvalue := ofDigits_filterMap (digits.append fraction)
      obtain ⟨n, ns, hcons⟩ := exists_cons_filterMap digits nonempty
      rw [List.filterMap_append, hcons] at hvalue
      have hlength : (fs.filterMap asciiDigit?).length = fs.length := by
        rw [filterMap_asciiDigit? fraction, List.length_map]
      simp only [decimal?, spanDigits_append digits hpoint,
        spanDigits_append fraction hstops, hcons]
      simp [hexponent, hlength, ← hvalue]

end Reading

namespace Text

/-- The characters of numerals. -/
def numeralChars : List Char :=
  "0123456789.e+-".toList

private theorem exists_digitChar {c : Char} (h : c.isDigit = true) :
    ∃ n < 10, c = Nat.digitChar n := by
  obtain ⟨hlow, hhigh⟩ := Char.isDigit_iff_toNat.mp h
  change 48 ≤ c.toNat at hlow
  change c.toNat ≤ 57 at hhigh
  refine ⟨c.toNat - 48, by omega, ?_⟩
  rw [← Char.toNat_inj, Nat.toNat_digitChar_of_lt_ten (by omega)]
  omega

private theorem mem_numeralChars_of_isDigit {c : Char} (h : c.isDigit = true) :
    c ∈ numeralChars := by
  obtain ⟨n, hn, rfl⟩ := exists_digitChar h
  have hall : ∀ n < 10, Nat.digitChar n ∈ numeralChars := by decide
  exact hall n hn

private theorem toLower_of_isDigit {c : Char} (h : c.isDigit = true) : c.toLower = c := by
  obtain ⟨n, hn, rfl⟩ := exists_digitChar h
  have hall : ∀ n < 10, (Nat.digitChar n).toLower = Nat.digitChar n := by decide
  exact hall n hn

private theorem plain_of_mem_numeralChars : ∀ c ∈ numeralChars,
    isBlank c = false ∧ Reading.toAsciiDigit c = c ∧ c ≠ '_' := by
  have hall : numeralChars.all (fun c =>
      decide (isBlank c = false ∧ Reading.toAsciiDigit c = c ∧ c ≠ '_')) = true := by
    decide
  exact fun c hc => of_decide_eq_true (List.all_eq_true.mp hall c hc)

private theorem trim_eq_self {cs : List Char} (h : ∀ c ∈ cs, isBlank c = false) : trim cs = cs := by
  have hdrop {ds : List Char} (hds : ∀ c ∈ ds, isBlank c = false) : ds.dropWhile isBlank = ds := by
    cases ds with
    | nil => rfl
    | cons c ds => simp [hds c List.mem_cons_self]
  rw [trim, trimBy, hdrop h, hdrop (by simpa using h), List.reverse_reverse]

end Text

private theorem AllDigits.subset_numeralChars {cs : List Char} (h : AllDigits cs) :
    cs ⊆ Text.numeralChars :=
  fun c hc => Text.mem_numeralChars_of_isDigit (h c hc)

private theorem SpellsExponent.subset_numeralChars {cs : List Char} {e : ℤ}
    (h : SpellsExponent cs e) : cs ⊆ Text.numeralChars := by
  cases h with
  | none => exact List.nil_subset _
  | positive ds digits nonempty | negative ds digits nonempty =>
      simp only [List.cons_subset]
      exact ⟨by decide, by decide, digits.subset_numeralChars⟩

private theorem Spells.subset_numeralChars {cs : List Char} {d : Decimal} (h : Spells cs d) :
    cs ⊆ Text.numeralChars := by
  cases h with
  | whole digits nonempty exponent =>
      exact List.append_subset.mpr ⟨digits.subset_numeralChars, exponent.subset_numeralChars⟩
  | point digits nonempty fraction exponent =>
      simp only [List.append_subset, List.cons_subset]
      exact ⟨digits.subset_numeralChars, by decide, fraction.subset_numeralChars,
        exponent.subset_numeralChars⟩

private theorem Spells.head_isDigit {cs : List Char} {d : Decimal} (h : Spells cs d) :
    ∃ c rest, cs = c :: rest ∧ c.isDigit = true := by
  cases h with
  | @whole ds rest e digits nonempty exponent
  | @point ds fs rest e digits nonempty fraction exponent =>
      obtain ⟨c, ds, rfl⟩ := List.exists_cons_of_ne_nil nonempty
      exact ⟨c, _, rfl, digits c List.mem_cons_self⟩

namespace Reading

open Text

variable {cs : List Char} {d : Decimal}

private theorem joinDigits?_eq_self {previous : Option Char} (hprevious : previous ≠ some '_')
    (h : '_' ∉ cs) : joinDigits? previous cs = some cs := by
  induction cs generalizing previous with
  | nil => rw [joinDigits?, if_neg hprevious]
  | cons c cs ih =>
      rw [List.mem_cons, not_or] at h
      have hc : c ≠ '_' := Ne.symm h.1
      rw [joinDigits?, if_neg hc, if_neg (by simp [hprevious]), ih (by simpa using hc) h.2]
      rfl

/-- A sign in front of a numeral. -/
def withSign (negative : Bool) (cs : List Char) : List Char :=
  if negative then '-' :: cs else cs

end Reading

/-- A numeral is read character by character: it has no blanks, no digits of other scripts and no
low lines. -/
theorem Spells.plain_of_mem_withSign {cs : List Char} {d : Decimal} (h : Spells cs d)
    (negative : Bool) :
    ∀ c ∈ Reading.withSign negative cs, Text.isBlank c = false ∧ Reading.toAsciiDigit c = c ∧
    c ≠ '_' := by
  have hsubset : Reading.withSign negative cs ⊆ Text.numeralChars := by
    cases negative with
    | false => exact h.subset_numeralChars
    | true => exact List.cons_subset.mpr ⟨by decide, h.subset_numeralChars⟩
  exact fun c hc => Text.plain_of_mem_numeralChars c (hsubset hc)

namespace Reading

open Text

variable {cs : List Char} {d : Decimal}

theorem splitSign_withSign (h : Spells cs d) (negative : Bool) :
    splitSign (withSign negative cs) = (negative, cs) := by
  obtain ⟨c, rest, rfl, hc⟩ := h.head_isDigit
  cases negative with
  | true => rfl
  | false =>
      rw [withSign, if_neg Bool.false_ne_true, splitSign]
      · rintro _ ⟨⟩
        contradiction
      · rintro _ ⟨⟩
        contradiction

private theorem double?_withSign (h : Spells cs d) (negative : Bool) :
    double? (withSign negative cs) = some (.ofDecimal negative d.digits d.exponent) := by
  obtain ⟨c, rest, hcs, hc⟩ := h.head_isDigit
  have hword (word : String) (hw : word.toList.head?.any Char.isDigit = false) :
      String.ofList (cs.map Char.toLower) ≠ word := by
    rintro rfl
    rw [hcs, String.toList_ofList, List.map_cons, toLower_of_isDigit hc, List.head?_cons,
      Option.any_some, hc] at hw
    contradiction
  simp only [double?, splitSign_withSign h]
  split
  · rename_i heq
    exact absurd heq (hword "inf" (by decide))
  · rename_i heq
    exact absurd heq (hword "infinity" (by decide))
  · rename_i heq
    exact absurd heq (hword "nan" (by decide))
  · rw [decimal?_of_spells h]
    rfl

/-- A numeral of digits alone is a whole number, unless it is too long, and any other is
a double. -/
theorem number?_withSign {s : String} {negative : Bool} (h : Spells cs d)
    (hs : s.toList = withSign negative cs) :
    number? s =
      if AllDigits cs then
        if digitLimit < cs.length then none
        else some (.int (if negative then -(Nat.ofDigitChars 10 cs 0 : ℤ)
          else Nat.ofDigitChars 10 cs 0))
      else some (.double (.ofDecimal negative d.digits d.exponent)) := by
  have hplain := h.plain_of_mem_withSign negative
  have hmap : (withSign negative cs).map toAsciiDigit = withSign negative cs :=
    (List.map_congr_left fun c hc => (hplain c hc).2.1).trans (List.map_id _)
  have hjoin : joinDigits? none (withSign negative cs) = some (withSign negative cs) :=
    joinDigits?_eq_self (by simp) fun hmem => (hplain _ hmem).2.2 rfl
  have hempty : cs.isEmpty = false := by
    obtain ⟨c, rest, rfl, -⟩ := h.head_isDigit
    rfl
  have hall : cs.all isAsciiDigit = true ↔ AllDigits cs := by
    simp only [List.all_eq_true, isAsciiDigit_eq, AllDigits]
  rw [number?, hs, trim_eq_self fun c hc => (hplain c hc).1, hmap]
  simp only [splitSign_withSign h, hjoin, Option.bind_some, double?_withSign h, hempty,
    Bool.not_false, Bool.true_and, hall, Option.map_some]
  split
  · rename_i hdigits
    rw [ofDigits_filterMap hdigits]
  · rfl

/-- The count of places reads a numeral as the number itself is read. -/
theorem textPlaces?_withSign {s : String} {negative : Bool} (h : Spells cs d)
    (hs : s.toList = withSign negative cs) (hbound : d.exponent.natAbs ≤ exponentBound) :
    textPlaces? s = d.places? := by
  have hplain := h.plain_of_mem_withSign negative
  rw [textPlaces?, hs, trim_eq_self fun c hc => (hplain c hc).1,
    List.filter_eq_self.mpr fun c hc => by simpa using (hplain c hc).2.2]
  have hmap : (withSign negative cs).map toAsciiDigit = withSign negative cs :=
    (List.map_congr_left fun c hc => (hplain c hc).2.1).trans (List.map_id _)
  simp only [hmap, splitSign_withSign h, decimal?_of_spells h, if_neg (not_lt.mpr hbound)]

end Reading

/-- A number with a sign in front. -/
def signed (negative : Bool) (q : ℚ) : ℚ :=
  if negative then -q else q

theorem abs_signed_sub (negative : Bool) (p q : ℚ) :
    |signed negative p - signed negative q| = |p - q| := by
  cases negative with
  | false => rfl
  | true =>
      simp only [signed, if_true]
      rw [neg_sub_neg, abs_sub_comm]

namespace Double

open RoundingInterval

variable {v q : ℚ} {d : Decimal} {negative : Bool} {x : Double}

private theorem two_zpow_le_of_isDouble (hv : IsDouble v) (hpos : 0 < v) : 2 ^ (-1074 : ℤ) ≤ v := by
  have hsteps := isSteps_of_isDouble hv hpos
  refine le_trans ?_ hsteps.step_le
  exact zpow_le_zpow_right₀ one_le_two hsteps.exponent

/-- Four decimal digits are more than thirteen binary ones. -/
theorem two_zpow_le_ten_zpow (k : ℕ) : (2 : ℚ) ^ (13 * k : ℤ) ≤ 10 ^ (4 * k : ℤ) := by
  rw [zpow_mul, zpow_mul, zpow_natCast, zpow_natCast]
  gcongr
  norm_num

/-- No decimal that is rounded to a double is too large for its size to be read as an infinity. -/
theorem magnitude_le_of_contains (hv : IsDouble v) (hpos : 0 < v)
    (h : (around v).contains d.value = true) : d.size + d.exponent ≤ 320 := by
  have hlarge : (2 : ℚ) ^ (1025 : ℤ) ≤ 10 ^ (320 : ℤ) :=
    calc (2 : ℚ) ^ (1025 : ℤ) ≤ 2 ^ (13 * (79 : ℕ) : ℤ) :=
        zpow_le_zpow_right₀ one_le_two (by decide)
      _ ≤ 10 ^ (4 * (79 : ℕ) : ℤ) := two_zpow_le_ten_zpow 79
      _ ≤ 10 ^ (320 : ℤ) := zpow_le_zpow_right₀ (by norm_num) (by decide)
  have hvalue : (10 : ℚ) ^ ((d.size : ℤ) - 1 + d.exponent) < 10 ^ (320 : ℤ) :=
    calc (10 : ℚ) ^ ((d.size : ℤ) - 1 + d.exponent) ≤ d.value :=
          d.le_value (digits_ne_zero_of_contains hv hpos h)
      _ ≤ 2 * v := le_of_contains hv hpos h
      _ < 2 * 2 ^ (1024 : ℤ) := by
          obtain ⟨-, -, -, -, -, hlt⟩ := hv
          rw [abs_of_pos hpos] at hlt
          gcongr
      _ = 2 ^ (1025 : ℤ) := (zpow_one_add₀ two_ne_zero 1024).symm
      _ ≤ 10 ^ (320 : ℤ) := hlarge
  have := (zpow_lt_zpow_iff_right₀ (by norm_num)).mp hvalue
  omega

/-- No decimal that is rounded to a double other than zero is too small for its size to be read
as zero. -/
theorem le_magnitude_of_contains (hv : IsDouble v) (hpos : 0 < v)
    (h : (around v).contains d.value = true) : -340 ≤ d.size + d.exponent := by
  have hsmall : (10 : ℚ) ^ (-340 : ℤ) ≤ 2 ^ (-1075 : ℤ) :=
    calc (10 : ℚ) ^ (-340 : ℤ) ≤ 10 ^ (-(4 * (83 : ℕ)) : ℤ) :=
        zpow_le_zpow_right₀ (by norm_num) (by decide)
      _ ≤ 2 ^ (-(13 * (83 : ℕ)) : ℤ) := by
          rw [zpow_neg, zpow_neg]
          exact inv_anti₀ (by positivity) (two_zpow_le_ten_zpow 83)
      _ ≤ 2 ^ (-1075 : ℤ) := zpow_le_zpow_right₀ one_le_two (by decide)
  have hvalue : (10 : ℚ) ^ (-340 : ℤ) < 10 ^ ((d.size : ℤ) + d.exponent) :=
    calc (10 : ℚ) ^ (-340 : ℤ) ≤ 2 ^ (-1075 : ℤ) := hsmall
      _ = 2 ^ (-1074 : ℤ) / 2 := by
          rw [← two_zpow_sub_one]
          congr 1
      _ ≤ v / 2 := by
          have := two_zpow_le_of_isDouble hv hpos
          gcongr
      _ ≤ d.value := half_le_of_contains hv hpos h
      _ < 10 ^ ((d.size : ℤ) + d.exponent) := d.value_lt
  exact ((zpow_lt_zpow_iff_right₀ (by norm_num)).mp hvalue).le

/-- A decimal reads as a positive double just if it is rounded to it. -/
theorem ofDecimal_eq_finite_iff (hv : IsDouble v) (hpos : 0 < v) :
    ofDecimal false d.digits d.exponent = .finite v ↔ (around v).contains d.value = true := by
  by_cases hzero : d.digits = 0
  · rw [ofDecimal, if_pos hzero]
    refine iff_of_false (fun h => hpos.ne (finite.inj h)) fun h => ?_
    exact digits_ne_zero_of_contains hv hpos h hzero
  · rw [ofDecimal, if_neg hzero]
    change (if 320 < (d.size : ℤ) + d.exponent then Double.infinite false
      else if (d.size : ℤ) + d.exponent < -340 then .finite 0 else round d.value) = _ ↔ _
    split
    · refine iff_of_false (by simp) fun h => ?_
      have := magnitude_le_of_contains hv hpos h
      omega
    · split
      · refine iff_of_false (fun h => hpos.ne (finite.inj h)) fun h => ?_
        have := le_magnitude_of_contains hv hpos h
        omega
      · exact round_eq_finite_iff hv hpos (d.value_pos hzero)

/-- Numbers of either sign are rounded alike. -/
theorem round_neg_eq_finite_iff (hq : 0 < q) (hpos : 0 < v) :
    round (-q) = .finite (-v) ↔ round q = .finite v := by
  have hneg : -q < 0 := neg_lt_zero.mpr hq
  simp only [round, if_neg hq.ne', if_neg hneg.ne, Rat.neg_num, Rat.neg_den, Int.natAbs_neg,
    decide_eq_false hq.not_gt, decide_eq_true hneg]
  split
  · exact iff_of_false (by simp) (by simp)
  · split
    · exact iff_of_false (by simp) fun h => hpos.ne (finite.inj h)
    · simp

private theorem ofDecimal_neg_eq_finite_iff (hpos : 0 < v) :
    ofDecimal true d.digits d.exponent = .finite (-v) ↔
    ofDecimal false d.digits d.exponent = .finite v := by
  by_cases hzero : d.digits = 0
  · rw [ofDecimal, ofDecimal, if_pos hzero, if_pos hzero]
    exact iff_of_false (by simp) fun h => hpos.ne (finite.inj h)
  · rw [ofDecimal, ofDecimal, if_neg hzero, if_neg hzero]
    dsimp only
    split
    · exact iff_of_false (by simp) (by simp)
    · split
      · exact iff_of_false (by simp) fun h => hpos.ne (finite.inj h)
      · exact round_neg_eq_finite_iff (d.value_pos hzero) hpos

/-- Rounding never changes the sign. -/
theorem signed_nonneg_of_round {p : ℚ} (hp : 0 ≤ p) (h : round (signed negative p) = .finite q) :
    0 ≤ signed negative q := by
  cases negative with
  | false =>
      obtain ⟨t, ht, hle⟩ := le_round .zero hp
      change round p = _ at h
      rw [h] at ht
      obtain rfl := Option.some.inj ht
      exact (Point.at_le_at _ _).mp hle
  | true =>
      obtain ⟨t, ht, hle⟩ := round_le .zero (neg_nonpos.mpr hp)
      change round (-p) = _ at h
      rw [h] at ht
      obtain rfl := Option.some.inj ht
      exact neg_nonneg.mpr ((Point.at_le_at _ _).mp hle)

private theorem signed_nonneg_of_ofDecimal
    (h : ofDecimal negative d.digits d.exponent = .finite q) : 0 ≤ signed negative q := by
  have hzero : (if negative then Double.negativeZero else .finite 0) = .finite q →
    0 ≤ signed negative q := by
    cases negative with
    | false =>
        rintro ⟨⟩
        exact le_rfl
    | true => exact nofun
  rw [ofDecimal] at h
  split at h
  · exact hzero h
  · dsimp only at h
    split at h
    · contradiction
    · split at h
      · exact hzero h
      · exact signed_nonneg_of_round d.value_nonneg h

/-- A decimal reads as a double other than zero just if it has its sign and is rounded to it. -/
theorem ofDecimal_eq_signed_iff {s : Bool} (hv : IsDouble v) (hpos : 0 < v) :
    ofDecimal s d.digits d.exponent = .finite (signed negative v) ↔
      s = negative ∧ (around v).contains d.value = true := by
  rw [← ofDecimal_eq_finite_iff hv hpos]
  cases s <;> cases negative
  · exact (and_iff_right rfl).symm
  · refine iff_of_false (fun h => ?_) (by simp)
    exact (neg_nonneg.mp (signed_nonneg_of_ofDecimal h)).not_gt hpos
  · refine iff_of_false (fun h => ?_) (by simp)
    exact (neg_nonneg.mp (signed_nonneg_of_ofDecimal h)).not_gt hpos
  · exact (ofDecimal_neg_eq_finite_iff hpos).trans (and_iff_right rfl).symm

end Double

end TermRules
