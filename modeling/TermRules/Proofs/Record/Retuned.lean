import TermRules.Proofs.Record.Runs
import TermRules.Proofs.Term.Overlay

/-!
What options cannot change about the record of a hierarchy. Whether a hierarchy compiles is a matter
of the categories and the axes of its terms, and options touch neither.
-/

namespace TermRules

namespace Record

variable {t u : Term} {h h' : Hierarchy} {ls : List (Record Number)} {r : Record Number}

theorem axesOf_of_retunes (htu : t.Retunes u) : axesOf u = axesOf t := by
  rw [← htu]
  cases t
  simp only [axesOf]

private theorem levels_ok_of_retunes (hretunes : List.Forall₂ Term.Retunes h h')
    (hl : levels h = .ok ls) : ∃ ls', levels h' = .ok ls' := by
  induction hretunes generalizing ls with
  | nil => exact ⟨ls, hl⟩
  | @cons t u general general' htu _ ih =>
      obtain ⟨above, c, axes, habove, haxes, -⟩ := levels_cons_ok hl
      obtain ⟨above', habove'⟩ := ih habove
      refine ⟨extend c axes u above', ?_⟩
      simp only [levels_cons, habove', axesOf_of_retunes htu, haxes]

/-- A hierarchy that compiles also does under options. -/
theorem ofHierarchy_inject_ok (c : Constraints) (hr : ofHierarchy h = .ok r) :
    ∃ s, ofHierarchy (Hierarchy.inject c h) = .ok s := by
  obtain ⟨ls, hl, -⟩ := ofHierarchy_eq_ok_iff.mp hr
  obtain ⟨ls', hl'⟩ := levels_ok_of_retunes (Hierarchy.retunes_inject c h) hl
  exact ⟨link ls', ofHierarchy_eq_ok_iff.mpr ⟨ls', hl', rfl⟩⟩

end Record

end TermRules
