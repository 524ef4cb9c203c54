import TermRules.Proofs.Rule.Faults

/-!
The limits that rejections name. The hooks name none, and a directive names its own, so that each is
a limit of the rule that is checked or of one in its tree. A limit is worded as it is written out,
which cannot be done with every number.
-/

namespace TermRules

variable {α : Type} {p : Value → Prop} {hooks : Hooks} {v : Value} {path : String}

section Hooks

namespace Custom

end Custom

namespace Rule

end Rule

end Hooks

namespace Directive

end Directive

namespace Rule

variable {r s : Rule} {limit : Value}

/-- A directive in the tree of the rule has the limit. -/
def HasLimit (r : Rule) (limit : Value) : Prop :=
  ∃ (s : Rule) (d : Directive), s.IsWithin r ∧ d ∈ s.directives ∧ d.value = limit

private theorem HasLimit.of_isPartOf (hs : s.IsPartOf r) (h : s.HasLimit limit) :
    r.HasLimit limit := by
  obtain ⟨t, d, ht, hd⟩ := h
  exact ⟨t, d, ht.tail hs, hd⟩

end Rule

end TermRules
