import TermRules.Proofs.Pattern.Classes
import TermRules.Proofs.Pattern.Reading
import TermRules.Proofs.Text.Recognised

/-!
The two regular expressions that spell the recognised forms. Each is a row of character classes and
single characters between two anchors, so it matches at the start of a text exactly if the text
falls into such pieces; the final anchor also holds in front of a line feed at the very end.
-/

namespace TermRules.Pattern

open Text (Hexadecimal Email UpToLineEnd isBlank isHexDigit)

variable {cs : List Char} {c : Char}

def hexadecimalPattern : String :=
  "^[0-9a-fA-F]+$"

def emailPattern : String :=
  "^[^@\\s]+@[^@\\s]+\\.[^@\\s]+$"

/-- One or more hexadecimal digits. -/
def hexDigits : Node :=
  .repetition .greedy 1 none [.set false [.range 48 57, .range 97 102, .range 65 70]]

/-- One or more characters that are neither an at-sign nor blank. -/
def outside : Node :=
  .repetition .greedy 1 none [.set true [.code 64, .family .blank false]]

def hexadecimalRegex : Regex where
  flags := {}
  body := [.anchor .lineStart, hexDigits, .anchor .lineEnd]

def emailRegex : Regex where
  flags := {}
  body := [.anchor .lineStart, outside, .literal 64, outside, .literal 46, outside,
    .anchor .lineEnd]

section Reading

open Read

variable [Library] {finish fuel position : Nat} {rest next : List Char} {done : List Node}

private theorem rowFrom_hexDigits :
    rowFrom finish (fuel + 2) position ("[0-9a-fA-F]+".toList ++ '$' :: rest) done =
      rowFrom finish fuel (position + 12) ('$' :: rest) (hexDigits :: done) := by
  rfl

private theorem rowFrom_outside (h : next = ['@'] ∨ next = ['\\', '.'] ∨ next = ['$']) :
    rowFrom finish (fuel + 2) position ("[^@\\s]+".toList ++ (next ++ rest)) done =
      rowFrom finish fuel (position + 7) (next ++ rest) (outside :: done) := by
  rcases h with rfl | rfl | rfl <;> rfl

private theorem rowFrom_at : rowFrom finish (fuel + 1) position ('@' :: '[' :: rest) done =
    rowFrom finish fuel (position + 1) ('[' :: rest) (.literal 64 :: done) := by
  rfl

private theorem rowFrom_point :
    rowFrom finish (fuel + 1) position ('\\' :: '.' :: '[' :: rest) done =
    rowFrom finish fuel (position + 2) ('[' :: rest) (.literal 46 :: done) := by
  rfl

theorem parse_hexadecimalPattern : parse hexadecimalPattern = .ok hexadecimalRegex := by
  have hcs : hexadecimalPattern.toList = '^' :: ("[0-9a-fA-F]+".toList ++ ['$']) := by rfl
  refine parse_of_rowFrom hcs (by rfl) ?_ (by rfl)
  exact rowFrom_lineStart.trans (rowFrom_hexDigits.trans rowFrom_lineEnd)

theorem parse_emailPattern : parse emailPattern = .ok emailRegex := by
  have hcs : emailPattern.toList = '^' :: ("[^@\\s]+".toList ++ ('@' :: ("[^@\\s]+".toList ++
      ('\\' :: '.' :: ("[^@\\s]+".toList ++ ['$']))))) := by rfl
  refine parse_of_rowFrom hcs (by rfl) ?_ (by rfl)
  exact rowFrom_lineStart.trans <|
    (rowFrom_outside (.inl rfl)).trans <| rowFrom_at.trans <|
    (rowFrom_outside (.inr (.inl rfl))).trans <| rowFrom_point.trans <|
    (rowFrom_outside (.inr (.inr rfl))).trans rowFrom_lineEnd

end Reading

section Pieces

variable {ns : List Node} {a : Attempt} {k : Continuation}

/-- Characters of a class, at least one, can be taken such that `goes` holds behind them. -/
def Attempt.Runs (p : Char → Prop) (a : Attempt) (goes : Attempt → Prop) : Prop :=
  ∃ word rest, a.place.ahead = word ++ rest ∧ word ≠ [] ∧ (∀ c ∈ word, p c) ∧
    goes (a.past word rest)

private theorem takes_one_iff {p : Char → Bool} {q : Char → Prop} (hpq : ∀ c, p c = true ↔ q c) :
    a.Takes p 1 0 k ↔ a.Runs q fun b => (k b).isSome = true := by
  simp only [Attempt.Takes, Attempt.Runs, hpq, Nat.zero_add, Nat.one_le_iff_ne_zero, ne_eq,
    List.length_eq_zero_iff]
  refine exists₂_congr fun word rest => and_congr_right fun _ => ?_
  rw [and_left_comm]

private theorem row_hexDigits_iff : (row {} (hexDigits :: ns) a k).isSome = true ↔
    a.Runs (isHexDigit · = true) fun b => (row {} ns b k).isSome = true := by
  rw [hexDigits, row_class_iff, takes_one_iff]
  intro c
  simp [Member.holds, isHexDigit, Char.le_def, UInt32.le_iff_toNat_le, or_assoc]

private theorem row_outside_iff : (row {} (outside :: ns) a k).isSome = true ↔
    a.Runs (fun c => c ≠ '@' ∧ isBlank c = false) fun b => (row {} ns b k).isSome = true := by
  rw [outside, row_class_iff, takes_one_iff]
  intro c
  have hat : c.toNat = 64 ↔ c = '@' := Char.toNat_inj (d := '@')
  simp [Member.holds, Family.holds, Flags.sameCode, hat]

private theorem row_sign_iff {sign : Char} {code : Nat} (hcode : sign.toNat = code) :
    (row {} (.literal code :: ns) a k).isSome = true ↔
      ∃ rest, a.place.ahead = sign :: rest ∧ (row {} ns (a.past [sign] rest) k).isSome = true := by
  rw [row_literal_iff, ← hcode]
  simp only [Flags.sameCode, Bool.not_false, if_true, beq_iff_eq, Char.toNat_inj]
  constructor
  · rintro ⟨c, rest, hahead, rfl, hrest⟩
    exact ⟨rest, hahead, hrest⟩
  · rintro ⟨rest, hahead, hrest⟩
    exact ⟨sign, rest, hahead, rfl, hrest⟩

private theorem row_lineStart (cs : List Char) :
    row {} (.anchor .lineStart :: ns) ⟨.start cs, []⟩ k = row {} ns ⟨.start cs, []⟩ k :=
  rfl

private theorem row_lineEnd_iff : (row {} [.anchor .lineEnd] a some).isSome = true ↔
    a.place.ahead = [] ∨ a.place.ahead = ['\n'] := by
  rw [row_anchor_iff]
  simp [Anchor.holds, row]

end Pieces

theorem hexadecimalRegex_matches_iff :
    hexadecimalRegex.matchesAt (.start cs) = true ↔ UpToLineEnd Hexadecimal cs := by
  rw [Regex.matchesAt, hexadecimalRegex, row_lineStart, row_hexDigits_iff, Text.upToLineEnd_iff]
  simp only [Attempt.Runs, row_lineEnd_iff, Hexadecimal, Text.isHexDigit_iff, and_assoc]
  rfl

theorem emailRegex_matches_iff :
    emailRegex.matchesAt (.start cs) = true ↔ UpToLineEnd Email cs := by
  have hat : '@'.toNat = 64 := rfl
  have hpoint : '.'.toNat = 46 := rfl
  rw [Regex.matchesAt, emailRegex, row_lineStart, Text.upToLineEnd_iff]
  simp only [Attempt.Runs, row_outside_iff, row_sign_iff hat, row_sign_iff hpoint, row_lineEnd_iff,
    Text.email_iff_pieces, List.forall_mem_append]
  -- Both sides now split the text into the same pieces, nested on the left and side by side on
  -- the right.
  constructor
  · rintro ⟨mailbox, _, hcs, hmailbox, hfront, _, rfl, name, _, rfl, hname, hmiddle, _,
      rfl, top, rest, rfl, htop, hback, hend⟩
    refine ⟨mailbox ++ '@' :: (name ++ '.' :: top), rest, ?_,
      ⟨mailbox, name, top, rfl, hmailbox, hname, htop, ⟨hfront, hmiddle⟩, hback⟩, hend⟩
    simpa [Place.start] using hcs
  · rintro ⟨_, rest, rfl,
      ⟨mailbox, name, top, rfl, hmailbox, hname, htop, ⟨hfront, hmiddle⟩, hback⟩, hend⟩
    refine ⟨mailbox, '@' :: (name ++ '.' :: (top ++ rest)), ?_, hmailbox, hfront, _, rfl, name,
      '.' :: (top ++ rest), rfl, hname, hmiddle, _, rfl, top, rest, rfl, htop, hback, hend⟩
    simp [Place.start]

end TermRules.Pattern
