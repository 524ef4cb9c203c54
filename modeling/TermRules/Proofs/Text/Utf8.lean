import TermRules.Proofs.Success
import TermRules.Text.Utf8

/-!
Decoding is the inverse of encoding: the bytes that are decoded are those of a text's
characters, one after another, and the text is that text. So bytes are refused exactly if no
text is encoded by them.
-/

namespace TermRules.Text

open String (utf8EncodeChar)

/-- The bytes of one character: a lead byte and as many others as it announces. -/
inductive IsSequence : List UInt8 → Prop where
  | one {a : UInt8} (ha : a.toNat < 0x80) : IsSequence [a]
  | two {a b : UInt8} (ha : 0xC2 ≤ a.toNat ∧ a.toNat < 0xE0) (hb : continuesLead a b = true) :
      IsSequence [a, b]
  | three {a b c : UInt8} (ha : 0xE0 ≤ a.toNat ∧ a.toNat < 0xF0) (hb : continuesLead a b = true)
      (hc : isContinuation c = true) : IsSequence [a, b, c]
  | four {a b c d : UInt8} (ha : 0xF0 ≤ a.toNat ∧ a.toNat < 0xF5) (hb : continuesLead a b = true)
      (hc : isContinuation c = true) (hd : isContinuation d = true) : IsSequence [a, b, c, d]

variable {a b c d : UInt8} {here n : Nat} {bytes front rest : List UInt8} {x y : Char}
  {cs : List Char}

private theorem isContinuation_iff : isContinuation b = true ↔ 0x80 ≤ b.toNat ∧ b.toNat ≤ 0xBF := by
  simp [isContinuation, UInt8.le_iff_toNat_le]

private theorem continuesLead_iff : continuesLead a b = true ↔ (0x80 ≤ b.toNat ∧ b.toNat ≤ 0xBF) ∧
    (a.toNat = 0xE0 → 0xA0 ≤ b.toNat) ∧ (a.toNat = 0xED → b.toNat ≤ 0x9F) ∧
    (a.toNat = 0xF0 → 0x90 ≤ b.toNat) ∧ (a.toNat = 0xF4 → b.toNat ≤ 0x8F) := by
  simp [continuesLead, isContinuation_iff, UInt8.le_iff_toNat_le, ← UInt8.toNat_inj,
    ← imp_iff_not_or, and_assoc]

section Encode

/-- The character of a code point, by its number. -/
theorem val_ofNat (h : n.isValidChar) : (Char.ofNat n).val.toNat = n := by
  rw [Char.ofNat, dif_pos h]
  rfl

private theorem encode_one (ha : a.toNat < 0x80) : utf8EncodeChar (Char.ofNat a.toNat) = [a] := by
  have hval := val_ofNat (n := a.toNat) (.inl (by omega))
  simp only [utf8EncodeChar, hval]
  rw [if_pos (by omega)]
  simp

private theorem encode_two (ha : 0xC2 ≤ a.toNat ∧ a.toNat < 0xE0) (hb : continuesLead a b = true) :
    utf8EncodeChar (sequenceChar (a.toNat - 0xC0) [b]) = [a, b] := by
  rw [continuesLead_iff] at hb
  have hval := val_ofNat (n := (a.toNat - 0xC0) * 64 + (b.toNat - 0x80)) (.inl (by omega))
  simp only [utf8EncodeChar, sequenceChar, List.foldl, hval]
  rw [if_neg (by omega), if_pos (by omega)]
  simp only [List.cons.injEq, ← UInt8.toNat_inj, UInt8.toNat_ofNat', and_true]
  omega

private theorem encode_three (ha : 0xE0 ≤ a.toNat ∧ a.toNat < 0xF0) (hb : continuesLead a b = true)
    (hc : isContinuation c = true) :
    utf8EncodeChar (sequenceChar (a.toNat - 0xE0) [b, c]) = [a, b, c] := by
  rw [continuesLead_iff] at hb
  rw [isContinuation_iff] at hc
  have hval := val_ofNat
    (n := ((a.toNat - 0xE0) * 64 + (b.toNat - 0x80)) * 64 + (c.toNat - 0x80))
    (by simp only [Nat.isValidChar]; omega)
  simp only [utf8EncodeChar, sequenceChar, List.foldl, hval]
  rw [if_neg (by omega), if_neg (by omega), if_pos (by omega)]
  simp only [List.cons.injEq, ← UInt8.toNat_inj, UInt8.toNat_ofNat', and_true]
  omega

private theorem encode_four (ha : 0xF0 ≤ a.toNat ∧ a.toNat < 0xF5) (hb : continuesLead a b = true)
    (hc : isContinuation c = true) (hd : isContinuation d = true) :
    utf8EncodeChar (sequenceChar (a.toNat - 0xF0) [b, c, d]) = [a, b, c, d] := by
  rw [continuesLead_iff] at hb
  rw [isContinuation_iff] at hc hd
  have hval := val_ofNat
    (n := (((a.toNat - 0xF0) * 64 + (b.toNat - 0x80)) * 64 + (c.toNat - 0x80)) * 64 +
      (d.toNat - 0x80))
    (by simp only [Nat.isValidChar]; omega)
  simp only [utf8EncodeChar, sequenceChar, List.foldl, hval]
  rw [if_neg (by omega), if_neg (by omega), if_neg (by omega)]
  simp only [List.cons.injEq, ← UInt8.toNat_inj, UInt8.toNat_ofNat', and_true]
  omega

private theorem toNat_byte (h : n < 256) : (UInt8.ofNat n).toNat = n := by
  rw [UInt8.toNat_ofNat', Nat.mod_eq_of_lt h]

private theorem isSequence_encode (x : Char) : IsSequence (utf8EncodeChar x) := by
  have hvalid : x.val.toNat < 0xD800 ∨ 0xDFFF < x.val.toNat ∧ x.val.toNat < 0x110000 := x.valid
  simp only [utf8EncodeChar]
  generalize x.val.toNat = n at hvalid
  have hlast : (UInt8.ofNat (n % 64 + 128)).toNat = n % 64 + 128 := toNat_byte (by omega)
  have hinner (m : Nat) : (UInt8.ofNat (n / m % 64 + 128)).toNat = n / m % 64 + 128 :=
    toNat_byte (by omega)
  split
  · have ha : (UInt8.ofNat n).toNat = n := toNat_byte (by omega)
    exact .one (by omega)
  · split
    · have ha : (UInt8.ofNat (n / 64 % 32 + 192)).toNat = n / 64 % 32 + 192 := toNat_byte (by omega)
      exact .two (by omega) (continuesLead_iff.mpr (by omega))
    · split
      · have ha : (UInt8.ofNat (n / 4096 % 16 + 224)).toNat = n / 4096 % 16 + 224 :=
          toNat_byte (by omega)
        have hb := hinner 64
        exact .three (by omega) (continuesLead_iff.mpr (by omega))
          (isContinuation_iff.mpr (by omega))
      · have ha : (UInt8.ofNat (n / 262144 % 8 + 240)).toNat = n / 262144 % 8 + 240 :=
          toNat_byte (by omega)
        have hb := hinner 4096
        have hc := hinner 64
        exact .four (by omega) (continuesLead_iff.mpr (by omega))
          (isContinuation_iff.mpr (by omega)) (isContinuation_iff.mpr (by omega))

private theorem utf8EncodeChar_injective (h : utf8EncodeChar x = utf8EncodeChar y) : x = y := by
  have hx := ByteArray.utf8DecodeChar?_utf8EncodeChar_append (b := .empty) (c := x)
  rw [h, ByteArray.utf8DecodeChar?_utf8EncodeChar_append] at hx
  exact (Option.some.inj hx).symm

end Encode

section Decode

/-- A sequence is read as the character that it encodes. -/
theorem decodeFrom_sequence (h : IsSequence front) (here : Nat) (rest : List UInt8) :
    ∃ x behind, utf8EncodeChar x = front ∧
      decodeFrom here (front ++ rest) = (x :: ·) <$> decodeFrom behind rest := by
  cases h with
  | @one a ha =>
      refine ⟨_, here + 1, encode_one ha, ?_⟩
      have hone : a < 0x80 := ha
      rw [List.cons_append, decodeFrom.eq_def]
      simp [hone]
  | @two a b ha hb =>
      refine ⟨_, here + 2, encode_two ha hb, ?_⟩
      have hone : ¬a < 0x80 := Nat.not_lt.mpr (Nat.le_trans (by decide) ha.1)
      have hlow : ¬a < 0xC2 := Nat.not_lt.mpr ha.1
      have hhigh : a < 0xE0 := ha.2
      rw [List.cons_append, decodeFrom.eq_def]
      simp [hone, hlow, hhigh, hb]
  | @three a b c ha hb hc =>
      refine ⟨_, here + 3, encode_three ha hb hc, ?_⟩
      have hone : ¬a < 0x80 := Nat.not_lt.mpr (Nat.le_trans (by decide) ha.1)
      have htwo : ¬a < 0xC2 := Nat.not_lt.mpr (Nat.le_trans (by decide) ha.1)
      have hlow : ¬a < 0xE0 := Nat.not_lt.mpr ha.1
      have hhigh : a < 0xF0 := ha.2
      rw [List.cons_append, decodeFrom.eq_def]
      simp [hone, htwo, hlow, hhigh, hb, hc]
  | @four a b c d ha hb hc hd =>
      refine ⟨_, here + 4, encode_four ha hb hc hd, ?_⟩
      have hone : ¬a < 0x80 := Nat.not_lt.mpr (Nat.le_trans (by decide) ha.1)
      have htwo : ¬a < 0xC2 := Nat.not_lt.mpr (Nat.le_trans (by decide) ha.1)
      have hthree : ¬a < 0xE0 := Nat.not_lt.mpr (Nat.le_trans (by decide) ha.1)
      have hlow : ¬a < 0xF0 := Nat.not_lt.mpr ha.1
      have hhigh : a < 0xF5 := ha.2
      rw [List.cons_append, decodeFrom.eq_def]
      simp [hone, htwo, hthree, hlow, hhigh, hb, hc, hd]

end Decode

/-- One more character in front. -/
theorem encode_cons {y : Except Undecodable (List Char)}
    (hx : utf8EncodeChar x = front) (ih : ∀ {cs}, y = .ok cs → rest = cs.flatMap utf8EncodeChar)
    (h : (x :: ·) <$> y = .ok cs) : front ++ rest = cs.flatMap utf8EncodeChar := by
  obtain ⟨xs, hy, rfl⟩ := map_eq_ok_iff.mp h
  rw [List.flatMap_cons, hx, ih hy]

private theorem encode_of_decodeFrom (h : decodeFrom here bytes = .ok cs) :
    bytes = cs.flatMap utf8EncodeChar := by
  -- The five cases named are those in which nothing is refused.
  fun_induction decodeFrom here bytes generalizing cs
  case case1 =>
    obtain rfl := Except.ok.inj h
    rfl
  case case2 hone ih => exact encode_cons (encode_one hone) ih h
  case case5 hlow hhigh b rest hb ih =>
    exact encode_cons (encode_two ⟨Nat.not_lt.mp hlow, hhigh⟩ hb) ih h
  case case12 hlow hhigh b c rest hb hc ih =>
    exact encode_cons
      (encode_three ⟨Nat.not_lt.mp hlow, hhigh⟩ (by simpa using hb) (by simpa using hc)) ih h
  case case22 hlow hhigh b c d rest hb hc hd ih =>
    exact encode_cons
      (encode_four ⟨Nat.not_lt.mp hlow, hhigh⟩ (by simpa using hb) (by simpa using hc)
      (by simpa using hd)) ih h
  all_goals contradiction

theorem decodeFrom_eq_ok_iff :
    decodeFrom here bytes = .ok cs ↔ bytes = cs.flatMap utf8EncodeChar := by
  refine ⟨encode_of_decodeFrom, ?_⟩
  rintro rfl
  induction cs generalizing here with
  | nil => rfl
  | cons x cs ih =>
      obtain ⟨y, behind, hy, hstep⟩ := decodeFrom_sequence (isSequence_encode x) here
        (cs.flatMap utf8EncodeChar)
      rw [List.flatMap_cons, hstep, ih, utf8EncodeChar_injective hy]
      rfl

/-- Some text is encoded by the bytes. -/
def IsUtf8 (bytes : List UInt8) : Prop :=
  ∃ cs : List Char, bytes = cs.flatMap utf8EncodeChar

theorem isUtf8_iff : IsUtf8 bytes ↔ ∃ cs, decodeFrom here bytes = .ok cs :=
  exists_congr fun _ => decodeFrom_eq_ok_iff.symm

end TermRules.Text
