import TermRules.Text.Case
import TermRules.Text.Recognised

/-!
Lower case leaves no capital ASCII letter, and changes no text of other ASCII characters. For a
hexadecimal numeral it is therefore idempotent. Whether it is so for all texts is not asked here.
-/

namespace TermRules.Text

def IsCapital (c : Char) : Prop :=
  0x41 ≤ c.toNat ∧ c.toNat ≤ 0x5A

def IsAscii (c : Char) : Prop :=
  c.toNat < 0x80

private theorem lt_lowerIn {runs : List (Nat × Nat × Nat × Nat)} {n c : Nat}
    (hruns : ∀ run ∈ runs, n < run.2.2.2) (hc : n < c) : n < lowerIn runs c := by
  induction runs with
  | nil => exact hc
  | cons run runs ih =>
      obtain ⟨first, last, step, image⟩ := run
      obtain ⟨himage, hruns⟩ := List.forall_mem_cons.mp hruns
      rw [lowerIn]
      split
      · exact hc
      · split
        · exact Nat.lt_add_right _ himage
        · exact ih hruns

private theorem lowerCode_not_capital (c : Nat) : ¬ (0x41 ≤ lowerCode c ∧ lowerCode c ≤ 0x5A) := by
  have hruns : ∀ run ∈ lowerRuns, 0x5A < run.2.2.2 := by decide +kernel
  rw [lowerCode]
  split
  · split <;> rename_i hcapital <;> simp only [Bool.and_eq_true, decide_eq_true_eq] at hcapital
    · omega
    · exact hcapital
  · have := lt_lowerIn (c := c) hruns (by omega)
    omega

private theorem lowerChar_not_capital (c : Char) : ¬ IsCapital (lowerChar c) := by
  have hcode := lowerCode_not_capital c.toNat
  by_cases hvalid : (lowerCode c.toNat).isValidChar
  · rw [IsCapital, lowerChar, Char.ofNat, dif_pos hvalid]
    exact hcode
  · rw [IsCapital, lowerChar, Char.ofNat, dif_neg hvalid]
    decide

theorem not_capital_of_mem_lowerFrom {before cs : List Char} {c : Char}
    (h : c ∈ lowerFrom before cs) : ¬ IsCapital c := by
  induction cs generalizing before with
  | nil => simp [lowerFrom] at h
  | cons d rest ih =>
      rw [lowerFrom] at h
      rcases List.mem_append.mp h with h | h
      · split at h
        · rw [List.mem_singleton] at h
          subst h
          split <;> simp [IsCapital]
        · split at h
          · simp only [List.mem_cons, List.not_mem_nil, or_false] at h
            rcases h with rfl | rfl <;> simp [IsCapital]
          · rw [List.mem_singleton] at h
            exact h ▸ lowerChar_not_capital d
      · exact ih h

private theorem lowerChar_eq_self {c : Char} (hascii : IsAscii c) (h : ¬ IsCapital c) :
    lowerChar c = c := by
  have hcode : lowerCode c.toNat = c.toNat := by
    have hlt : c.toNat < 0x80 := hascii
    rw [lowerCode, if_pos hlt, if_neg (by simpa [IsCapital] using h)]
  rw [lowerChar, hcode, Char.ofNat_toNat]

private theorem lowerFrom_eq_self {before cs : List Char} (hascii : ∀ c ∈ cs, IsAscii c)
    (h : ∀ c ∈ cs, ¬ IsCapital c) : lowerFrom before cs = cs := by
  induction cs generalizing before with
  | nil => rfl
  | cons c rest ih =>
      obtain ⟨hc, hrest⟩ := List.forall_mem_cons.mp hascii
      obtain ⟨hsmall, hsmalls⟩ := List.forall_mem_cons.mp h
      have hsigma : c ≠ '\u03a3' := by
        rintro rfl
        simp [IsAscii] at hc
      have hdotted : c ≠ '\u0130' := by
        rintro rfl
        simp [IsAscii] at hc
      rw [lowerFrom, ih hrest hsmalls]
      simp [hsigma, hdotted, lowerChar_eq_self hc hsmall]

private theorem isAscii_of_hexadecimal {s : String} (h : isHexadecimal s = true) :
    ∀ c ∈ s.toList, IsAscii c := by
  have hdigits : ∀ c ∈ withoutLineEnd s.toList, IsAscii c := by
    simp only [isHexadecimal, Bool.and_eq_true, List.all_eq_true] at h
    intro c hc
    have hdigit := h.2 c hc
    simp only [isHexDigit, Bool.or_eq_true, Bool.and_eq_true, decide_eq_true_eq, Char.le_def,
      UInt32.le_iff_toNat_le] at hdigit
    have hval : c.toNat = c.val.toNat := rfl
    simp at hdigit
    rw [IsAscii]
    omega
  intro c hc
  rw [withoutLineEnd] at hdigits
  split at hdigits
  · rename_i hlast
    obtain ⟨front, hfront⟩ := List.getLast?_eq_some_iff.mp hlast
    rw [hfront, List.dropLast_concat] at hdigits
    rw [hfront] at hc
    rcases List.mem_append.mp hc with hc | hc
    · exact hdigits c hc
    · rw [List.mem_singleton] at hc
      subst hc
      simp [IsAscii]
  · exact hdigits c hc

theorem lower_of_hexadecimal {s : String} (h : isHexadecimal s = true)
    (hlower : ∀ c ∈ s.toList, ¬ IsCapital c) : lower s = s := by
  rw [lower, lowerFrom_eq_self (isAscii_of_hexadecimal h) hlower, String.ofList_toList]

end TermRules.Text
