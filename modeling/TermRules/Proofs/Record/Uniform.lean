import TermRules.Proofs.Record.Level

/-!
Hierarchies of one category. Those that describe no objects always compile, to the record of the
single run that they are.
-/

namespace TermRules

namespace Record

variable {c : Category} {h : Hierarchy}

theorem axesOf_describes_nothing (hc : c ≠ .object) (t : Term) : AxesOf c {} t :=
  fun h => absurd h hc

theorem levels_of_category (hc : c ≠ .object) (t : Term)
    (hcat : ∀ u ∈ t :: h, u.category = c.name) :
    levels (t :: h) = .ok [ofRun c (t :: h).reverse] := by
  induction h generalizing t with
  | nil =>
      have ht : t.category = c.name := hcat t (by simp)
      simp only [levels_cons, levels_nil, axesOf_of_category hc ht, extend]
      change Except.ok [absorb c {} t {}] = _
      rw [absorb_empty (axesOf_describes_nothing hc t)]
      rfl
  | cons u general ih =>
      have ht : t.category = c.name := hcat t (by simp)
      have hgeneral := ih u fun v hv => hcat v (List.mem_cons_of_mem t hv)
      rw [levels_cons, hgeneral]
      simp only [axesOf_of_category hc ht, extend, ofRun_category, if_true,
        absorb_ofRun (axesOf_describes_nothing hc t), List.reverse_cons]

theorem ofHierarchy_of_category (hc : c ≠ .object) (hne : h ≠ [])
    (hcat : ∀ t ∈ h, t.category = c.name) : ofHierarchy h = .ok (ofRun c h.reverse) := by
  obtain ⟨t, general, rfl⟩ := List.exists_cons_of_ne_nil hne
  have hchild := ofRun_child c (t :: general).reverse
  rw [ofHierarchy_eq, levels_of_category hc t hcat]
  change Except.ok { ofRun c (t :: general).reverse with child := none } = _
  rw [← hchild]
  rfl

/-- Without any terms the record has no category, and nothing else sets it apart. -/
theorem ofHierarchy_of_category_or_nil (hc : c ≠ .object) (hcat : ∀ t ∈ h, t.category = c.name) :
    ∃ r, ofHierarchy h = .ok r ∧ { r with category := some c } = ofRun c h.reverse := by
  by_cases hne : h = []
  · subst hne
    refine ⟨{}, rfl, ?_⟩
    cases c <;> rfl
  · exact ⟨_, ofHierarchy_of_category hc hne hcat, rfl⟩

end Record

end TermRules
