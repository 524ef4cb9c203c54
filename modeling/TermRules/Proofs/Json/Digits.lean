import TermRules.Json.Parser
import TermRules.Proofs.Success

/-!
The one limit of reading JSON: a document is refused for too many digits only if it holds a number
of more digits than are read, and for a mistake in its form otherwise.
-/

namespace TermRules.Json

variable {α β : Type}

/-- A number refused for its digits has more of them than are read. -/
def Problem.IsFair : Problem → Prop
  | .tooManyDigits count => digitLimit < count
  | .malformed _ _ => True

/-- Fails for fair problems only. -/
def Fair (x : Except Problem α) : Prop :=
  Lands Problem.IsFair (fun _ => True) x

private theorem Fair.bind {x : Except Problem α} {f : α → Except Problem β} (hx : Fair x)
    (hf : ∀ a, Fair (f a)) : Fair (x >>= f) :=
  Lands.bind hx fun a _ => hf a

private theorem Fair.map {x : Except Problem α} {f : α → β} (hx : Fair x) : Fair (x.map f) := by
  cases x <;> exact hx

private theorem fair_ok (a : α) : Fair (.ok a) :=
  trivial

private theorem fair_malformed (cause : Cause) (offset : Nat) :
    Fair (.error (.malformed cause offset) : Except Problem α) :=
  trivial

private theorem fair_textCodes (start here : Nat) (cs : List Char) :
    Fair (textCodes start here cs) := by
  fun_induction textCodes start here cs
  all_goals first | exact fair_ok _ | exact fair_malformed _ _ | exact Fair.map ‹_›

private theorem fair_ite {p : Prop} [Decidable p] {x y : Except Problem α} (hx : p → Fair x)
    (hy : Fair y) : Fair (if p then x else y) := by
  split
  · exact hx ‹p›
  · exact hy

private theorem fair_numberAt (c : Cursor) : Fair (numberAt c) := by
  rw [numberAt]
  dsimp only
  refine fair_ite (fun _ => fair_malformed _ _) (fair_ite (fun _ => ?_) (fair_ok _))
  exact fair_ite (fun hlimit => hlimit) (fair_ok _)

private theorem fair_at (depth : Nat) : (∀ c, Fair (valueAt depth c)) ∧
    (∀ done c, Fair (itemsAt depth done c)) ∧ ∀ done c, Fair (membersAt depth done c) := by
  induction depth with
  | zero =>
      exact ⟨fun _ => fair_malformed _ _, fun _ _ => fair_malformed _ _,
        fun _ _ => fair_malformed _ _⟩
  | succ depth ih =>
      obtain ⟨hvalue, hitems, hmembers⟩ := ih
      refine ⟨fun c => ?_, fun done c => ?_, fun done c => ?_⟩
      · rw [valueAt]
        split
        · exact (Fair.map (fair_textCodes _ _ _)).map
        · dsimp only
          split
          · exact fair_ok _
          · exact hmembers _ _
        · dsimp only
          split
          · exact fair_ok _
          · exact hitems _ _
        · split
          · exact fair_ok _
          · exact fair_numberAt c
      · rw [itemsAt]
        refine (hvalue c).bind fun (v, next) => ?_
        dsimp only
        split
        · exact fair_ok _
        · exact hitems _ _
        · exact fair_malformed _ _
      · rw [membersAt]
        split
        · exact fair_malformed _ _
        · refine (Fair.map (fair_textCodes _ _ _)).bind fun (name, afterName) => ?_
          dsimp only
          split
          · exact fair_malformed _ _
          · refine (hvalue _).bind fun (v, next) => ?_
            dsimp only
            split
            · exact fair_ok _
            · exact hmembers _ _
            · exact fair_malformed _ _

private theorem fair_parseChars (document : List Char) : Fair (parseChars document) := by
  rw [parseChars]
  split
  · exact fair_malformed _ _
  · refine ((fair_at _).1 _).bind fun (v, next) => ?_
    dsimp only
    split
    · exact fair_ok _
    · exact fair_malformed _ _

theorem lt_of_parse_tooManyDigits {document : String} {count : Nat}
    (h : parse document = .error (.tooManyDigits count)) : digitLimit < count := by
  have hfair := fair_parseChars document.toList
  rw [parse] at h
  cases hparse : parseChars document.toList with
  | ok v => rw [hparse] at h; contradiction
  | error problem =>
      rw [hparse] at h hfair
      cases problem with
      | malformed cause offset => cases h
      | tooManyDigits n =>
          cases h
          exact hfair

end TermRules.Json
