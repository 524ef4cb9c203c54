import TermRules.Proofs.Number.Reading
import TermRules.Proofs.Number.Shortest
import TermRules.Value.Display

/-!
What numbers are written as. The text of a number is a sign and a numeral that reads back as the
number: a whole number is written out with all its digits, and a double by its shortest decimal, in
one of three layouts and perhaps with zeros behind it. The text has as many decimal places as the
number is said to have.
-/

namespace TermRules

open Reading (withSign)

namespace Double

variable {d : Decimal}

private theorem ofDigitChars_zeros (k : ℕ) (cs : List Char) :
    Nat.ofDigitChars 10 (List.replicate k '0' ++ cs) 0 = Nat.ofDigitChars 10 cs 0 := by
  rw [Nat.ofDigitChars_append, Nat.ofDigitChars_replicate_zero, Nat.mul_zero]

private theorem spellsExponent_text (e : ℤ) :
    SpellsExponent
      ('e' :: (if e < 0 then '-' else '+') ::
        if (Nat.toDigits 10 e.natAbs).length < 2 then '0' :: Nat.toDigits 10 e.natAbs
        else Nat.toDigits 10 e.natAbs) e := by
  generalize hds : (if (Nat.toDigits 10 e.natAbs).length < 2 then '0' :: Nat.toDigits 10 e.natAbs
    else Nat.toDigits 10 e.natAbs) = ds
  obtain ⟨hdigits, hvalue, hne⟩ : AllDigits ds ∧ Nat.ofDigitChars 10 ds 0 = e.natAbs ∧ ds ≠ [] := by
    rw [← hds]
    split
    · refine ⟨List.forall_mem_cons.mpr ⟨rfl, allDigits_toDigits _⟩, ?_, List.cons_ne_nil _ _⟩
      exact (ofDigitChars_zeros 1 _).trans Nat.ofDigitChars_ten_toDigits
    · exact ⟨allDigits_toDigits _, Nat.ofDigitChars_ten_toDigits, Nat.toDigits_ne_nil⟩
  split
  · have h := SpellsExponent.negative ds hdigits hne
    rwa [hvalue, show -((e.natAbs : ℕ) : ℤ) = e by omega] at h
  · have h := SpellsExponent.positive ds hdigits hne
    rwa [hvalue, show ((e.natAbs : ℕ) : ℤ) = e by omega] at h

section Layouts

variable {ds : List Char} (digits : AllDigits ds)
include digits

private theorem spells_belowOne (k : ℕ) :
    Spells ("0." ++ String.ofList (List.replicate k '0' ++ ds)).toList
      ⟨Nat.ofDigitChars 10 ds 0, -((k + ds.length : ℕ) : ℤ)⟩ := by
  have h := Spells.point (allDigits_zeros 1) (List.cons_ne_nil '0' [])
    ((allDigits_zeros k).append digits) .none
  rw [ofDigitChars_zeros, ofDigitChars_zeros, zero_sub, List.length_append,
    List.length_replicate, List.append_nil] at h
  simp only [String.toList_append, String.toList_ofList]
  exact h

private theorem spells_padded (hne : ds ≠ []) (k : ℕ) :
    Spells (String.ofList (ds ++ List.replicate k '0') ++ ".0").toList
      ⟨Nat.ofDigitChars 10 ds 0 * 10 ^ (k + 1), -1⟩ := by
  have h := Spells.point (digits.append (allDigits_zeros k)) (by simp [hne])
    (allDigits_zeros 1) .none
  rw [List.append_assoc ds _ (List.replicate 1 '0'), List.replicate_append_replicate,
    Nat.ofDigitChars_append, Nat.ofDigitChars_replicate_zero, mul_comm] at h
  simp only [String.toList_append, String.toList_ofList]
  exact h

private theorem spells_inside {k : ℕ} (hne : ds.take k ≠ []) :
    Spells (String.ofList (ds.take k) ++ "." ++ String.ofList (ds.drop k)).toList
      ⟨Nat.ofDigitChars 10 ds 0, -((ds.length - k : ℕ) : ℤ)⟩ := by
  have h := Spells.point (fun c hc => digits c (List.mem_of_mem_take hc)) hne
    (fun c hc => digits c (List.mem_of_mem_drop (i := k) hc)) .none
  rw [List.take_append_drop, List.length_drop, zero_sub, List.append_nil] at h
  simp only [String.toList_append, String.toList_ofList, List.append_assoc]
  exact h

private theorem spells_scientific (hne : ds ≠ []) (e : ℤ) :
    Spells (String.ofList (ds.take 1 ++
      (match ds.drop 1 with
        | [] => []
        | rest => '.' :: rest) ++
      ['e', if e < 0 then '-' else '+'] ++
        if (Nat.toDigits 10 e.natAbs).length < 2 then '0' :: Nat.toDigits 10 e.natAbs
        else Nat.toDigits 10 e.natAbs)).toList
      ⟨Nat.ofDigitChars 10 ds 0, e - (ds.length - 1 : ℕ)⟩ := by
  rw [String.toList_ofList, List.append_assoc, List.append_assoc]
  match ds, hne with
  | [c], _ =>
      have h := Spells.whole digits (List.cons_ne_nil c []) (spellsExponent_text e)
      have hexponent : e - (([c].length - 1 : ℕ) : ℤ) = e := sub_zero e
      rw [hexponent]
      exact h
  | c :: c' :: cs, _ =>
      obtain ⟨hc, hcs⟩ := List.forall_mem_cons.mp digits
      have h := Spells.point (List.forall_mem_singleton.mpr hc) (List.cons_ne_nil c [])
        (show AllDigits (c' :: cs) from hcs) (spellsExponent_text e)
      exact h

end Layouts

/-- The text of a decimal spells it, with some zeros more where no digit stands behind the point. -/
theorem spells_positionalText (d : Decimal) :
    ∃ zeros : ℕ, Spells (positionalText d).toList ⟨d.digits * 10 ^ zeros, d.exponent - zeros⟩ ∧
      (zeros = 0 ∨ d.size + zeros ≤ 17) := by
  have hdigits := allDigits_toDigits d.digits
  have hne : Nat.toDigits 10 d.digits ≠ [] := Nat.toDigits_ne_nil
  have hvalue : Nat.ofDigitChars 10 (Nat.toDigits 10 d.digits) 0 = d.digits :=
    Nat.ofDigitChars_ten_toDigits
  rw [← hvalue, Decimal.size, positionalText]
  generalize Nat.toDigits 10 d.digits = ds at *
  have hlength : 0 < ds.length := List.length_pos_iff.mpr hne
  dsimp only
  split
  · rename_i hpoint
    split
    · refine ⟨0, ?_, .inl rfl⟩
      have h := spells_belowOne hdigits (-(ds.length + d.exponent)).toNat
      have hexponent : -(((-(ds.length + d.exponent)).toNat + ds.length : ℕ) : ℤ) =
          d.exponent - (0 : ℕ) := by omega
      rwa [hexponent, ← mul_one (Nat.ofDigitChars 10 ds 0)] at h
    · split
      · refine ⟨(ds.length + d.exponent).toNat - ds.length + 1, ?_, .inr (by omega)⟩
        have h := spells_padded hdigits hne ((ds.length + d.exponent).toNat - ds.length)
        rwa [show (-1 : ℤ) =
          d.exponent - (((ds.length + d.exponent).toNat - ds.length + 1 : ℕ) : ℤ) by omega] at h
      · refine ⟨0, ?_, .inl rfl⟩
        have h := spells_inside hdigits (k := (ds.length + d.exponent).toNat) (by
          rw [Ne, List.take_eq_nil_iff, not_or]
          exact ⟨by omega, hne⟩)
        have hexponent : -((ds.length - (ds.length + d.exponent).toNat : ℕ) : ℤ) =
            d.exponent - (0 : ℕ) := by omega
        rwa [hexponent, ← mul_one (Nat.ofDigitChars 10 ds 0)] at h
  · refine ⟨0, ?_, .inl rfl⟩
    have h := spells_scientific hdigits hne (ds.length + d.exponent - 1)
    have hexponent : (ds.length : ℤ) + d.exponent - 1 - (ds.length - 1 : ℕ) =
        d.exponent - (0 : ℕ) := by omega
    rwa [hexponent, ← mul_one (Nat.ofDigitChars 10 ds 0)] at h

private theorem not_allDigits_positionalText (d : Decimal) :
    ¬ AllDigits (positionalText d).toList := by
  have hmark : '.' ∈ (positionalText d).toList ∨ 'e' ∈ (positionalText d).toList := by
    rw [positionalText]
    dsimp only
    split_ifs <;> simp
  intro h
  rcases hmark with hpoint | hexponent
  · exact absurd (h _ hpoint) (by decide)
  · exact absurd (h _ hexponent) (by decide)

/-- A decimal reads as the double, no decimal that does has fewer digits, and none with as few
is nearer. -/
structure IsShortest (y : Double) (negative : Bool) (d : Decimal) : Prop where
  readsBack : ofDecimal negative d.digits d.exponent = y
  shortest (s : Bool) (e : Decimal) : ofDecimal s e.digits e.exponent = y → d.strip.size ≤ e.size
  nearest (s : Bool) (e : Decimal) (q : ℚ) : ofDecimal s e.digits e.exponent = y →
    e.size ≤ d.strip.size →
    y.point? = some (.at q) → |signed negative d.value - q| ≤ |signed s e.value - q|

private theorem isShortest_of_value_eq {v : ℚ} (hv : IsDouble v) (hpos : 0 < v)
    (h : (shortest v).value = d.value) (negative : Bool) :
    IsShortest (.finite (signed negative v)) negative d := by
  have hcontains : (RoundingInterval.around v).contains d.value = true :=
    h ▸ contains_shortest hv hpos
  have hsize : d.strip.size ≤ (shortest v).size :=
    Decimal.strip_size_le (digits_ne_zero_of_contains hv hpos hcontains) h
  refine ⟨(ofDecimal_eq_signed_iff hv hpos).mpr ⟨rfl, hcontains⟩, fun s e he => ?_,
    fun s e q he hle hq => ?_⟩
  · obtain ⟨-, hmem⟩ := (ofDecimal_eq_signed_iff hv hpos).mp he
    exact hsize.trans (shortest_size_le hv hpos hmem)
  · obtain ⟨rfl, hmem⟩ := (ofDecimal_eq_signed_iff hv hpos).mp he
    obtain rfl := Point.at.inj (Option.some.inj hq)
    rw [abs_signed_sub, abs_signed_sub, ← h]
    exact shortest_nearest hv hpos hmem (hle.trans hsize)

private theorem isShortest_zero (negative : Bool) (exponent : ℤ) :
    IsShortest (if negative then .negativeZero else .finite 0) negative ⟨0, exponent⟩ := by
  refine ⟨rfl, fun s e _ => ?_, fun s e q _ _ hq => ?_⟩
  · rw [Decimal.strip, if_pos rfl]
    exact e.size_pos
  · have hzero : q = 0 := by
      cases negative <;> exact (Point.at.inj (Option.some.inj hq)).symm
    have hvalue : signed negative (Decimal.mk 0 exponent).value = 0 := by
      rw [Decimal.value_eq_zero_iff.mpr rfl]
      cases negative <;> rfl
    rw [hzero, hvalue, sub_zero, abs_zero]
    exact abs_nonneg _

end Double

/-- A decimal of the size of doubles, and with no more digits than tell these apart. -/
structure Decimal.FitsDouble (d : Decimal) : Prop where
  size_le : d.size ≤ 17
  le_magnitude : -340 ≤ d.size + d.exponent
  magnitude_le : d.size + d.exponent ≤ 320

namespace Decimal.FitsDouble

variable {d : Decimal}

private theorem keepsPlaces (h : d.FitsDouble) : d.KeepsPlaces := by
  have hsize := h.size_le
  have hmagnitude := h.le_magnitude
  exact .inr ⟨hsize.trans (by decide), by rw [finest]; omega⟩

private theorem natAbs_exponent_le (h : d.FitsDouble) :
    d.exponent.natAbs ≤ Reading.exponentBound := by
  obtain ⟨hsize, hle, hge⟩ := h
  rw [Reading.exponentBound]
  omega

end Decimal.FitsDouble

namespace Double

variable {v : ℚ} {y : Double}

private theorem fitsDouble_of_contains {d : Decimal} (hv : IsDouble v) (hpos : 0 < v)
    (hsize : d.size ≤ 17) (h : (RoundingInterval.around v).contains d.value = true) :
    d.FitsDouble :=
  ⟨hsize, le_magnitude_of_contains hv hpos h, magnitude_le_of_contains hv hpos h⟩

private theorem fitsDouble_shortest (hv : IsDouble v) (hpos : 0 < v) : (shortest v).FitsDouble :=
  fitsDouble_of_contains hv hpos (shortest_size_le_seventeen hv hpos) (contains_shortest hv hpos)

private theorem fitsDouble_zero : (Decimal.mk 0 (-1)).FitsDouble := by
  constructor <;> decide

/-- The decimal that is written for a positive double: the shortest one, with zeros behind it. -/
theorem exists_spells_shortest (hv : IsDouble v) (hpos : 0 < v) :
    ∃ d, Spells (positionalText (shortest v)).toList d ∧ d.FitsDouble ∧
    (shortest v).value = d.value := by
  obtain ⟨zeros, hspells, hsize⟩ := spells_positionalText (shortest v)
  have hvalue : (shortest v).value =
      (⟨(shortest v).digits * 10 ^ zeros, (shortest v).exponent - zeros⟩ : Decimal).value := by
    rw [Decimal.value_eq, Decimal.value_eq, zpow_sub₀ (by norm_num), zpow_natCast]
    push_cast
    rw [mul_assoc, mul_div_cancel₀ _ (by positivity)]
  refine ⟨_, hspells,
    fitsDouble_of_contains hv hpos ?_ (hvalue ▸ contains_shortest hv hpos), hvalue⟩
  rcases hsize with rfl | hsize
  · simpa using shortest_size_le_seventeen hv hpos
  · refine (Decimal.size_le_iff (by decide)).mpr ?_
    calc (shortest v).digits * 10 ^ zeros < 10 ^ (shortest v).size * 10 ^ zeros := by
          gcongr
          exact lt_pow_length_toDigits _
      _ = 10 ^ ((shortest v).size + zeros) := (pow_add 10 _ _).symm
      _ ≤ 10 ^ 17 := Nat.pow_le_pow_right (by decide) hsize

/-- What the text of a double is. -/
structure IsWritten (y : Double) (negative : Bool) (cs : List Char) (d : Decimal) : Prop where
  text : y.text.toList = withSign negative cs
  spells : Spells cs d
  shortest : y.IsShortest negative d
  notWhole : ¬ AllDigits cs
  fits : d.FitsDouble
  places : y.places? = d.places?

private theorem isWritten_zero (negative : Bool) :
    IsWritten (if negative then .negativeZero else .finite 0) negative "0.0".toList ⟨0, -1⟩ where
  text := by cases negative <;> rfl
  spells := .point (allDigits_zeros 1) (List.cons_ne_nil '0' []) (allDigits_zeros 1) .none
  shortest := isShortest_zero negative (-1)
  notWhole := by decide
  fits := fitsDouble_zero
  places := by cases negative <;> rfl

private theorem exists_isWritten_signed (hv : IsDouble v) (hpos : 0 < v) (negative : Bool) :
    ∃ cs d, IsWritten (.finite (signed negative v)) negative cs d := by
  obtain ⟨d, hspells, hfits, hvalue⟩ := exists_spells_shortest hv hpos
  have hplaces :=
    Decimal.places?_congr (fitsDouble_shortest hv hpos).keepsPlaces hfits.keepsPlaces hvalue
  refine ⟨_, d, ?_, hspells, isShortest_of_value_eq hv hpos hvalue negative,
    not_allDigits_positionalText _, hfits, ?_⟩
  · cases negative with
    | false =>
        simp only [signed, text, withSign, if_neg hpos.ne', if_neg hpos.not_gt,
          Bool.false_eq_true, if_false]
    | true =>
        simp only [signed, text, withSign, if_neg (neg_ne_zero.mpr hpos.ne'),
          if_pos (neg_lt_zero.mpr hpos), if_true, neg_neg, String.toList_append]
        rfl
  · rw [← hplaces]
    cases negative with
    | false =>
        simp only [signed, places?, if_neg hpos.ne', if_neg hpos.not_gt,
          Bool.false_eq_true, if_false]
    | true =>
        simp only [signed, places?, if_neg (neg_ne_zero.mpr hpos.ne'),
          if_pos (neg_lt_zero.mpr hpos), if_true, neg_neg]

private theorem exists_isWritten {q : ℚ} (grid : y.OnGrid) (h : y.point? = some (.at q)) :
    ∃ negative cs d, y.IsWritten negative cs d := by
  cases y with
  | nan => contradiction
  | infinite negative => cases negative <;> simp [point?] at h
  | negativeZero => exact ⟨true, _, _, isWritten_zero true⟩
  | finite q =>
      have hq : IsDouble q := .of_onGrid grid
      rcases lt_trichotomy q 0 with hneg | rfl | hpos
      · obtain ⟨cs, d, hwritten⟩ := exists_isWritten_signed hq.neg (neg_pos.mpr hneg) true
        rw [signed, if_pos rfl, neg_neg] at hwritten
        exact ⟨true, cs, d, hwritten⟩
      · exact ⟨false, _, _, isWritten_zero false⟩
      · obtain ⟨cs, d, hwritten⟩ := exists_isWritten_signed hq hpos false
        exact ⟨false, cs, d, hwritten⟩

end Double

namespace Number

variable {x : Number} {n : ℤ} {negative : Bool} {d : Decimal}

/-- Neither an infinity nor a NaN. -/
def IsFinite (x : Number) : Prop :=
  ∃ q, x.point? = some (.at q)

/-- The text of a number is a sign and a numeral, which spells the decimal, and reads back as the
number. The decimal is the whole number itself, or the shortest one that reads as the double. -/
structure IsWritten (x : Number) (negative : Bool) (d : Decimal) : Prop where
  spells : ∃ cs, (Value.ofNumber x).display.toList = withSign negative cs ∧ Spells cs d
  readsBack : Reading.number? (Value.ofNumber x).display = some x
  whole (n : ℤ) : x = .int n → signed negative d.value = n
  shortest (y : Double) : x = .double y → y.IsShortest negative d

/-- The rational that the text of a number spells. -/
def IsWrittenAs (x : Number) (q : ℚ) : Prop :=
  ∃ negative d, x.IsWritten negative d ∧ signed negative d.value = q

theorem IsWritten.read (h : x.IsWritten negative d) :
    (Reading.splitSign (Value.ofNumber x).display.toList).1 = negative ∧
      Reading.decimal? (Reading.splitSign (Value.ofNumber x).display.toList).2 = some d := by
  obtain ⟨cs, hcs, hspells⟩ := h.spells
  rw [hcs, Reading.splitSign_withSign hspells]
  exact ⟨rfl, Reading.decimal?_of_spells hspells⟩

/-- A text spells one decimal only. -/
theorem IsWritten.unique {negative' : Bool} {d' : Decimal} (h : x.IsWritten negative d)
    (h' : x.IsWritten negative' d') : negative = negative' ∧ d = d' :=
  ⟨h.read.1.symm.trans h'.read.1, Option.some.inj (h.read.2.symm.trans h'.read.2)⟩

private theorem toList_toString (n : ℤ) :
    (toString n).toList = withSign (decide (n < 0)) (Nat.toDigits 10 n.natAbs) := by
  cases n with
  | ofNat n =>
      change (Nat.repr n).toList = _
      simp [withSign, Nat.repr_eq_ofList_toDigits]
  | negSucc n =>
      change ("-" ++ Nat.repr (n + 1)).toList = _
      simp [withSign, Nat.repr_eq_ofList_toDigits]

private theorem spells_toDigits (n : ℕ) : Spells (Nat.toDigits 10 n) ⟨n, 0⟩ := by
  have h := Spells.whole (allDigits_toDigits n) Nat.toDigits_ne_nil .none
  rwa [List.append_nil, Nat.ofDigitChars_ten_toDigits] at h

private theorem ite_neg_natAbs (n : ℤ) :
    (if decide (n < 0) = true then -(n.natAbs : ℤ) else n.natAbs) = n := by
  simp only [decide_eq_true_eq]
  split <;> omega

private theorem signed_natAbs (n : ℤ) : signed (decide (n < 0)) (n.natAbs : ℚ) = n := by
  have h := congrArg (fun k : ℤ => (k : ℚ)) (ite_neg_natAbs n)
  rw [apply_ite (fun k : ℤ => (k : ℚ)), Int.cast_neg, Int.cast_natCast] at h
  exact h

private theorem isWritten_int (h : (Number.int n).IsWritable) :
    (Number.int n).IsWritten (decide (n < 0)) ⟨n.natAbs, 0⟩ where
  spells := ⟨_, toList_toString n, spells_toDigits _⟩
  readsBack := by
    change Reading.number? (toString n) = _
    rw [Reading.number?_withSign (spells_toDigits _) (toList_toString n),
      if_pos (allDigits_toDigits _),
      if_neg (not_lt.mpr h), Nat.ofDigitChars_ten_toDigits, ite_neg_natAbs]
  whole k hk := by
    obtain rfl := Number.int.inj hk
    rw [Decimal.value_eq, zpow_zero, mul_one, signed_natAbs]
  shortest := nofun

private theorem isWritten_double {y : Double} {cs : List Char} (h : y.IsWritten negative cs d) :
    (Number.double y).IsWritten negative d where
  spells := ⟨cs, h.text, h.spells⟩
  readsBack := by
    change Reading.number? y.text = _
    rw [Reading.number?_withSign h.spells h.text, if_neg h.notWhole, h.shortest.readsBack]
  whole := nofun
  shortest y' hy := by
    obtain rfl := Number.double.inj hy
    exact h.shortest

/-- Every number is written as some decimal, the places of which are those of the number. -/
theorem exists_isWritten (h : x.IsWritable) (finite : x.IsFinite) :
    ∃ negative d, x.IsWritten negative d ∧ d.KeepsPlaces ∧
    d.exponent.natAbs ≤ Reading.exponentBound ∧ x.places? = d.places? := by
  cases x with
  | int n => exact ⟨_, _, isWritten_int h, .inl le_rfl, Nat.zero_le _, rfl⟩
  | double y =>
      obtain ⟨q, hq⟩ := finite
      obtain ⟨negative, cs, d, hwritten⟩ := Double.exists_isWritten h hq
      exact ⟨negative, d, isWritten_double hwritten, hwritten.fits.keepsPlaces,
        hwritten.fits.natAbs_exponent_le, hwritten.places⟩

theorem existsUnique_isWrittenAs (h : x.IsWritable) (finite : x.IsFinite) :
    ∃! q, x.IsWrittenAs q := by
  obtain ⟨negative, d, hwritten, -⟩ := exists_isWritten h finite
  refine ⟨_, ⟨negative, d, hwritten, rfl⟩, ?_⟩
  rintro _ ⟨negative', d', hwritten', rfl⟩
  obtain ⟨rfl, rfl⟩ := hwritten.unique hwritten'
  rfl

/-- The count of places is the least power of ten that makes the number whole, as it is written. -/
theorem places?_le_iff {q : ℚ} {places : ℕ} (h : x.IsWritable) (finite : x.IsFinite)
    (hq : x.IsWrittenAs q) (hplaces : x.places? = some places) (k : ℕ) :
    places ≤ k ↔ IsWhole (q * 10 ^ k) := by
  obtain ⟨negative, d, hwritten, hkeeps, -, heq⟩ := exists_isWritten h finite
  obtain ⟨negative', d', hwritten', rfl⟩ := hq
  obtain ⟨rfl, rfl⟩ := hwritten.unique hwritten'
  rw [Decimal.places?_le_iff (heq ▸ hplaces) hkeeps k]
  cases negative with
  | false => rfl
  | true =>
      change _ ↔ IsWhole (-d.value * 10 ^ k)
      rw [neg_mul, isWhole_neg_iff]

/-- A number has the places of its text. -/
theorem textPlaces?_display (h : x.IsWritable) :
    Reading.textPlaces? (Value.ofNumber x).display = x.places? := by
  by_cases finite : x.IsFinite
  · obtain ⟨negative, d, hwritten, -, hbound, hplaces⟩ := exists_isWritten h finite
    obtain ⟨cs, hcs, hspells⟩ := hwritten.spells
    rw [Reading.textPlaces?_withSign hspells hcs hbound, hplaces]
  · cases x with
    | int n => exact absurd ⟨n, rfl⟩ finite
    | double y =>
        cases y with
        | nan => decide
        | infinite negative => cases negative <;> decide
        | negativeZero => exact absurd ⟨0, rfl⟩ finite
        | finite q => exact absurd ⟨q, rfl⟩ finite

end Number

end TermRules
