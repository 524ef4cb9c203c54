import TermRules.Program
import TermRules.Proofs.Pattern.Recognition
import TermRules.Proofs.Rule.Checking
import TermRules.Proofs.Rule.Hooks

/-!
Hexadecimal numerals and e-mail addresses in rules. Each form is recognised by a directive, by a
custom hook and by a regular expression, and all three accept the same texts: those of the form's
language and, as an end of line is overlooked, those with one line feed behind.
-/

namespace TermRules

open Text (Hexadecimal Email UpToLineEnd)

/-- The forms of text that a directive recognises and a custom hook as well. -/
inductive TextForm where
  | hexadecimal
  | email
  deriving DecidableEq, Repr

namespace TextForm

def directive : TextForm → DirectiveName
  | .hexadecimal => .hexadecimal
  | .email => .email

def custom : TextForm → Custom
  | .hexadecimal => .hexadecimal
  | .email => .email

def customName : TextForm → String
  | .hexadecimal => "customHex"
  | .email => "customEmail"

def pattern : TextForm → String
  | .hexadecimal => Pattern.hexadecimalPattern
  | .email => Pattern.emailPattern

/-- The texts that are meant. -/
def Language : TextForm → List Char → Prop
  | .hexadecimal => Hexadecimal
  | .email => Email

/-- Why the directive rejects a text. -/
def unmet : TextForm → Reason
  | .hexadecimal => .notHexadecimal
  | .email => .notEmail

/-- Why the custom hook rejects a text. -/
def refused : TextForm → Reason
  | .hexadecimal => .refusedHexadecimal
  | .email => .refusedEmail

end TextForm

/-- The answer is `granted` if the condition holds and the failure if it does not. -/
def Grants {α : Type} (condition : Prop) (granted : α) (failure : Failure)
    (answer : Except Failure α) : Prop :=
  condition ∧ answer = .ok granted ∨ ¬condition ∧ answer = .error failure

section Grants

variable {condition : Prop} {accepted : Bool} {reason : Reason} {v : Value} {path : String}

private theorem grants_demand (h : accepted = true ↔ condition) :
    Grants condition () (.rejected reason path v) (demand accepted reason path v) := by
  cases accepted with
  | true => exact .inl ⟨h.mp rfl, rfl⟩
  | false => exact .inr ⟨fun hcondition => Bool.noConfusion (h.mpr hcondition), rfl⟩

private theorem grants_customDemand (h : accepted = true ↔ condition) :
    Grants condition v (.rejected reason path v) (Custom.demand accepted reason v path) := by
  cases accepted with
  | true => exact .inl ⟨h.mp rfl, rfl⟩
  | false => exact .inr ⟨fun hcondition => Bool.noConfusion (h.mpr hcondition), rfl⟩

end Grants

namespace TextForm

variable (form : TextForm) {limit : Value} {s path : String}

private theorem grants_check [Library] : Grants (UpToLineEnd form.Language s.toList) ()
    (.rejected form.unmet path (.text s))
    ((Directive.mk form.directive limit).check (.text s) path) := by
  cases form with
  | hexadecimal => exact grants_demand Text.isHexadecimal_iff
  | email => exact grants_demand Text.isEmail_iff

private theorem grants_apply [Library] : Grants (UpToLineEnd form.Language s.toList) (.text s)
    (.rejected form.refused path (.text s)) (form.custom.apply (.text s) path) := by
  cases form with
  | hexadecimal => exact grants_customDemand Text.isHexadecimal_iff
  | email => exact grants_customDemand Text.isEmail_iff

private theorem lookup_customName :
    Hooks.lookup Hooks.standard.customs (Vocabulary.hook form.customName) = .ok form.custom := by
  cases form <;> rfl

private theorem pattern_matches_iff [Library] : ∃ r, Pattern.parse form.pattern = .ok r ∧
    (r.matchesAt (.start s.toList) = true ↔ UpToLineEnd form.Language s.toList) := by
  cases form with
  | hexadecimal => exact ⟨_, Pattern.parse_hexadecimalPattern, Pattern.hexadecimalRegex_matches_iff⟩
  | email => exact ⟨_, Pattern.parse_emailPattern, Pattern.emailRegex_matches_iff⟩

private theorem not_mem_lineFeed {cs : List Char} (h : form.Language cs) : '\n' ∉ cs := by
  cases form with
  | hexadecimal => exact h.not_mem_lineFeed
  | email => exact h.not_mem_lineFeed

/-- A directive and the hook of its form agree on every text, and both do what the regular
expression says. They keep to the form's language but for the texts that a line feed behind a
word makes. -/
theorem recognised_iff [Library] (limit : Value) (s path : String) :
    ∃ c r, Hooks.lookup Hooks.standard.customs (Vocabulary.hook form.customName) = .ok c ∧
      Pattern.parse form.pattern = .ok r ∧
      Grants (UpToLineEnd form.Language s.toList) () (.rejected form.unmet path (.text s))
        ((Directive.mk form.directive limit).check (.text s) path) ∧
      Grants (UpToLineEnd form.Language s.toList) (.text s) (.rejected form.refused path (.text s))
        (c.apply (.text s) path) ∧
      (r.matchesAt (.start s.toList) = true ↔ UpToLineEnd form.Language s.toList) ∧
      ((UpToLineEnd form.Language s.toList ↔ form.Language s.toList) ↔
        ¬∃ word, form.Language word ∧ s.toList = word ++ ['\n']) := by
  obtain ⟨r, hparse, hmatches⟩ := form.pattern_matches_iff (s := s)
  exact ⟨form.custom, r, form.lookup_customName, hparse, form.grants_check,
    form.grants_apply, hmatches, Text.upToLineEnd_iff_language form.not_mem_lineFeed⟩

section Program

open Program

/-- The directives and the hooks accept a numeral and an address that end in a line feed. -/
theorem recognised_lineFeeds :
    ((Directive.mk .hexadecimal .null).check (.text "ab\n") "" = .ok () ∧
      Custom.hexadecimal.apply (.text "ab\n") "" = .ok (.text "ab\n") ∧
      ¬Hexadecimal "ab\n".toList) ∧
    ((Directive.mk .email .null).check (.text "a@b.c\n") "" = .ok () ∧
      Custom.email.apply (.text "a@b.c\n") "" = .ok (.text "a@b.c\n") ∧ ¬Email "a@b.c\n".toList) :=
  ⟨⟨rfl, rfl, fun h => h.not_mem_lineFeed (by decide)⟩,
    ⟨rfl, rfl, fun h => h.not_mem_lineFeed (by decide)⟩⟩

end Program

end TextForm

end TermRules
