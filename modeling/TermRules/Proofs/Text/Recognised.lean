import Mathlib.Data.List.TakeWhile
import TermRules.Text.Recognised

/-!
Which texts are recognised as hexadecimal numerals and as e-mail addresses: those of two languages,
and beyond them the words of the languages with a line feed behind.
-/

namespace TermRules.Text

variable {cs : List Char} {c : Char} {s : String}

def hexadecimalDigits : List Char :=
  "0123456789abcdefABCDEF".toList

/-- One or more hexadecimal digits. -/
def Hexadecimal (cs : List Char) : Prop :=
  cs ≠ [] ∧ ∀ c ∈ cs, c ∈ hexadecimalDigits

/-- No blanks, one at-sign with something before it, and in the part behind it a point that is
neither its first nor its last character. -/
def Email (cs : List Char) : Prop :=
  (∀ c ∈ cs, isBlank c = false) ∧ ∃ mailbox domain, cs = mailbox ++ '@' :: domain ∧
    mailbox ≠ [] ∧ '@' ∉ mailbox ∧ '@' ∉ domain ∧
    ∃ name top, domain = name ++ '.' :: top ∧ name ≠ [] ∧ top ≠ []

/-- A word of the language, or one with a line feed behind it. -/
def UpToLineEnd (language : List Char → Prop) (cs : List Char) : Prop :=
  language cs ∨ ∃ word, language word ∧ cs = word ++ ['\n']

theorem upToLineEnd_iff {language : List Char → Prop} : UpToLineEnd language cs ↔
    ∃ word rest, cs = word ++ rest ∧ language word ∧ (rest = [] ∨ rest = ['\n']) := by
  constructor
  · rintro (h | ⟨word, h, rfl⟩)
    · exact ⟨cs, [], by simp, h, .inl rfl⟩
    · exact ⟨word, ['\n'], rfl, h, .inr rfl⟩
  · rintro ⟨word, rest, rfl, h, rfl | rfl⟩
    · exact .inl (by simpa using h)
    · exact .inr ⟨word, h, rfl⟩

private theorem withoutLineEnd_iff {language : List Char → Prop}
    (hline : ∀ {word}, language word → '\n' ∉ word) :
    language (withoutLineEnd cs) ↔ UpToLineEnd language cs := by
  rw [withoutLineEnd, UpToLineEnd]
  split
  · rename_i hlast
    obtain ⟨word, rfl⟩ := List.getLast?_eq_some_iff.mp hlast
    rw [List.dropLast_concat]
    constructor
    · exact fun h => .inr ⟨word, h, rfl⟩
    · rintro (h | ⟨other, h, heq⟩)
      · exact absurd (by simp) (hline h)
      · rwa [List.append_cancel_right heq]
  · rename_i hlast
    constructor
    · exact .inl
    · rintro (h | ⟨word, -, rfl⟩)
      · exact h
      · simp at hlast

/-- The line feed is what makes the difference. -/
theorem upToLineEnd_iff_language {language : List Char → Prop}
    (hline : ∀ {word}, language word → '\n' ∉ word) :
    (UpToLineEnd language cs ↔ language cs) ↔ ¬∃ word, language word ∧ cs = word ++ ['\n'] := by
  rw [UpToLineEnd, or_iff_left_iff_imp]
  refine imp_congr_right ?_
  rintro ⟨word, -, rfl⟩
  exact iff_false_intro fun h => absurd (by simp) (hline h)

theorem isHexDigit_iff : isHexDigit c = true ↔ c ∈ hexadecimalDigits := by
  constructor
  · intro h
    have hascii : c.toNat < 128 := by
      have hval : c.toNat = c.val.toNat := rfl
      simp only [isHexDigit, Bool.or_eq_true, Bool.and_eq_true, decide_eq_true_eq, Char.le_def,
        UInt32.le_iff_toNat_le] at h
      simp at h
      omega
    have hall : ∀ n < 128, isHexDigit (Char.ofNat n) = true → Char.ofNat n ∈ hexadecimalDigits := by
      decide
    have hmem := hall c.toNat hascii
    rw [Char.ofNat_toNat] at hmem
    exact hmem h
  · have hall : hexadecimalDigits.all isHexDigit = true := by decide
    exact List.all_eq_true.mp hall c

private theorem hexadecimal_iff : cs.isEmpty = false ∧ cs.all isHexDigit = true ↔
    Hexadecimal cs := by
  simp only [Hexadecimal, List.isEmpty_eq_false_iff, List.all_eq_true, isHexDigit_iff]

theorem Hexadecimal.not_mem_lineFeed (h : Hexadecimal cs) : '\n' ∉ cs := by
  intro hmem
  exact absurd (h.2 _ hmem) (by decide)

theorem isHexadecimal_iff : isHexadecimal s = true ↔ UpToLineEnd Hexadecimal s.toList := by
  rw [← withoutLineEnd_iff @Hexadecimal.not_mem_lineFeed, ← hexadecimal_iff, isHexadecimal]
  simp

private theorem hasInnerPoint_iff : hasInnerPoint cs = true ↔
    ∃ name top, cs = name ++ '.' :: top ∧ name ≠ [] ∧ top ≠ [] := by
  rw [hasInnerPoint, List.contains_iff_mem, List.mem_iff_append]
  constructor
  · rintro ⟨front, back, hinner⟩
    cases cs with
    | nil => simp at hinner
    | cons first behind =>
        rw [List.drop_one, List.tail_cons] at hinner
        have hne : behind ≠ [] := by
          rintro rfl
          simp at hinner
        have hsplit : behind = behind.dropLast ++ [behind.getLast hne] :=
          (List.dropLast_concat_getLast hne).symm
        generalize behind.getLast hne = last at hsplit
        rw [hinner] at hsplit
        exact ⟨first :: front, back ++ [last], by simp [hsplit], by simp, by simp⟩
  · rintro ⟨name, top, rfl, hname, htop⟩
    obtain ⟨first, front, rfl⟩ := List.exists_cons_of_ne_nil hname
    rw [← List.dropLast_concat_getLast htop]
    refine ⟨front, top.dropLast, ?_⟩
    rw [List.cons_append, List.drop_one, List.tail_cons, ← List.cons_append, ← List.append_assoc,
      List.dropLast_concat]

/-- What the recogniser asks of a text, with the at-sign as the first one there is. -/
theorem email_iff : (cs.any isBlank = false ∧ (cs.takeWhile (· != '@')).isEmpty = false ∧
      ((cs.dropWhile (· != '@')).drop 1).contains '@' = false ∧
      hasInnerPoint ((cs.dropWhile (· != '@')).drop 1) = true) ↔ Email cs := by
  constructor
  · rintro ⟨hblank, hmailbox, hsign, hpoint⟩
    have hjoin : cs.takeWhile (· != '@') ++ cs.dropWhile (· != '@') = cs :=
      List.takeWhile_append_dropWhile
    cases hdrop : cs.dropWhile (· != '@') with
    | nil =>
        rw [hdrop] at hpoint
        exact absurd hpoint (by decide)
    | cons sign domain =>
        have hat : sign = '@' := by
          have hstop := List.head_dropWhile_not (· != '@') (l := cs) (by simp [hdrop])
          simpa [hdrop] using hstop
        rw [hdrop, List.drop_one, List.tail_cons] at hsign hpoint
        subst hat
        refine ⟨by simpa using hblank, _,
          domain, by rw [← hdrop, hjoin], by simpa using hmailbox, ?_,
          by simpa using hsign, hasInnerPoint_iff.mp hpoint⟩
        intro hmem
        have hpass := List.mem_takeWhile_imp hmem
        exact absurd hpass (by decide)
  · rintro ⟨hblank, mailbox, domain, rfl, hne, hmailbox, hdomain, hpoint⟩
    have hall : ∀ c ∈ mailbox, (c != '@') = true := by
      intro c hc
      have hne : c ≠ '@' := fun heq => hmailbox (heq ▸ hc)
      simpa using hne
    have htake : (mailbox ++ '@' :: domain).takeWhile (· != '@') = mailbox := by
      simp [List.takeWhile_append_of_pos hall]
    have hdrop : (mailbox ++ '@' :: domain).dropWhile (· != '@') = '@' :: domain := by
      simp [List.dropWhile_append_of_pos hall]
    rw [htake, hdrop, List.drop_one, List.tail_cons]
    refine ⟨?_, by simpa using hne, by simpa using hdomain, hasInnerPoint_iff.mpr hpoint⟩
    rw [List.any_eq_false]
    exact fun c hc => by simp [hblank c hc]

/-- An address in three pieces. -/
theorem email_iff_pieces : Email cs ↔ ∃ mailbox name top,
    cs = mailbox ++ '@' :: (name ++ '.' :: top) ∧ mailbox ≠ [] ∧ name ≠ [] ∧ top ≠ [] ∧
      ∀ c ∈ mailbox ++ name ++ top, c ≠ '@' ∧ isBlank c = false := by
  constructor
  · rintro ⟨hblank, mailbox, _, rfl, hmailbox, hfront, hback, name, top, rfl, hname, htop⟩
    refine ⟨mailbox, name, top, rfl, hmailbox, hname, htop, fun c hc => ⟨?_, hblank c ?_⟩⟩
    · rintro rfl
      simp only [List.mem_append, List.mem_cons] at hc hback
      rcases hc with (h | h) | h
      · exact hfront h
      · exact hback (.inl h)
      · exact hback (.inr (.inr h))
    · simp only [List.mem_append, List.mem_cons] at hc ⊢
      grind
  · rintro ⟨mailbox, name, top, rfl, hmailbox, hname, htop, hall⟩
    simp only [List.mem_append] at hall
    refine ⟨?_, mailbox, _, rfl, hmailbox, fun h => (hall _ (.inl (.inl h))).1 rfl, ?_,
      name, top, rfl, hname, htop⟩
    · intro c hc
      simp only [List.mem_append, List.mem_cons] at hc
      rcases hc with h | rfl | h | rfl | h
      · exact (hall c (.inl (.inl h))).2
      · decide
      · exact (hall c (.inl (.inr h))).2
      · decide
      · exact (hall c (.inr h)).2
    · simp only [List.mem_append, List.mem_cons]
      rintro (h | h | h)
      · exact (hall _ (.inl (.inr h))).1 rfl
      · exact absurd h (by decide)
      · exact (hall _ (.inr h)).1 rfl

theorem Email.not_mem_lineFeed (h : Email cs) : '\n' ∉ cs := by
  intro hmem
  exact absurd (h.1 _ hmem) (by decide)

theorem isEmail_iff : isEmail s = true ↔ UpToLineEnd Email s.toList := by
  rw [← withoutLineEnd_iff @Email.not_mem_lineFeed, ← email_iff, isEmail]
  simp [and_assoc]

end TermRules.Text
