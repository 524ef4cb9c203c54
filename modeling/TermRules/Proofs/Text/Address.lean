import TermRules.Text.Address

/-!
What readers of web addresses agree on, whichever edition they are of. A bracket without a partner
is always refused, and what any edition takes apart the lenient one takes apart alike. A strict
edition sees to it that brackets enclose the address of a machine.
-/

namespace TermRules.Text.Address

variable {e : Edition} {s : String} {a : Address} {host : List Char}

private theorem ofText_eq_ok_iff : ofText e s = .ok a ↔
    parts (trimmed e s.toList) = a ∧ checkBrackets e a.host = .ok () ∧
      a.host.any (fun c => disguisedSeparators.contains c.toNat) = false := by
  rw [ofText]
  constructor
  · intro h
    split at h
    · contradiction
    · rename_i hbrackets
      split at h
      · contradiction
      · rename_i hseparators
        obtain rfl := Except.ok.inj h
        exact ⟨rfl, hbrackets, Bool.not_eq_true _ ▸ hseparators⟩
  · rintro ⟨rfl, hbrackets, hseparators⟩
    simp only [hbrackets, hseparators, Bool.false_eq_true, if_false]

private theorem checkBrackets_lenient (h : checkBrackets e host = .ok ()) :
    checkBrackets .lenient host = .ok () := by
  rw [checkBrackets] at h ⊢
  split at h
  · contradiction
  · rename_i hpaired
    rw [if_neg hpaired]
    split <;> rfl

/-- Editions differ in what they refuse, and not in what they make of an address. -/
theorem ofText_lenient (h : ofText e s = .ok a) :
    ofText .lenient (String.ofList (trimmed e s.toList)) = .ok a := by
  obtain ⟨hparts, hbrackets, hseparators⟩ := ofText_eq_ok_iff.mp h
  refine ofText_eq_ok_iff.mpr ⟨?_, checkBrackets_lenient hbrackets, hseparators⟩
  rw [String.toList_ofList]
  exact hparts

private theorem isMachine_of_checkMachine {machine : List Char}
    (h : checkMachine machine = .ok ()) :
    Machine.isVersioned machine = true ∨ Machine.isZoned machine = true := by
  rw [checkMachine] at h
  split at h
  · split at h
    · exact .inl ‹_›
    · contradiction
  · split at h
    · contradiction
    · split at h
      · exact .inr ‹_›
      · contradiction

/-- In an address that a strict edition takes apart, brackets enclose the address of a machine. -/
theorem isMachine_of_ofText (h : ofText .strict s = .ok a) (hbracket : '[' ∈ a.host) :
    Machine.isVersioned (enclosed a.host) = true ∨ Machine.isZoned (enclosed a.host) = true := by
  obtain ⟨-, hbrackets, -⟩ := ofText_eq_ok_iff.mp h
  rw [checkBrackets] at hbrackets
  split at hbrackets
  · contradiction
  · rw [List.contains_iff_mem.mpr hbracket] at hbrackets
    exact isMachine_of_checkMachine hbrackets

example : ofText .lenient "http://[abc]" = .ok ⟨"http".toList, "[abc]".toList⟩ ∧
    ofText .strict "http://[abc]" = .error (.unknownMachine "abc") := ⟨rfl, rfl⟩

end TermRules.Text.Address
