import TermRules.Proofs.Record.Retuned

/-!
Terms that compile alike. The category of a term decides which of its constraints are read, and an
axis without terms counts as none. Hierarchies that differ in nothing else have the same levels, or
fail with the same failure; which terms the failure leaves unread is not compared.
-/

namespace TermRules

/-- The constraints that are read of a term of the category. -/
def Constraints.readAs (k : Constraints) : Category → Constraints
  | .text => { length := k.length, regex := k.regex, target := k.target }
  | .numeric => { range := k.range, decimals := k.decimals }
  | .list => { size := k.size }
  | .any | .boolean | .struct | .object => {}

namespace Term

/-- The constraints that are read of a term; `none` if its category is unknown. -/
def constraintsRead (t : Term) : Option Constraints :=
  (Category.ofName? t.category).map t.constraints.readAs

/-- The term with other axes in place of its own. -/
def setAxes (t : Term) (keys values : Option Hierarchy) : Term :=
  { t with keyAxis := keys, valueAxis := values }

/-- A term whose axes, if it has any, are empty. -/
def IsBare (t : Term) : Prop :=
  ∀ axis, t.keyAxis = some axis ∨ t.valueAxis = some axis → axis = []

/-- Any level takes both terms in to the same effect. -/
structure Alike (t u : Term) : Prop where
  axes : Record.axesOf u = Record.axesOf t
  absorb : ∀ c axes r, Record.axesOf t = .ok (c, axes) →
    Record.absorb c axes u r = Record.absorb c axes t r

end Term

namespace Record

variable {t u : Term} {c : Category} {axes : Axes} {h h' : Hierarchy}

private theorem absorb_readAs (c : Category) (axes : Axes) (t : Term) (r : Record Number) :
    absorb c axes { t with constraints := t.constraints.readAs c } r = absorb c axes t r := by
  cases c <;> rfl

/-- A level takes the axes of a term in by their records alone. -/
theorem absorb_setAxes (c : Category) (axes : Axes) (t : Term) (keys values : Option Hierarchy)
    (r : Record Number) : absorb c axes (t.setAxes keys values) r = absorb c axes t r := by
  cases c <;> rfl

private theorem ofAxis_of_empty {axis : Option Hierarchy}
    (h : ∀ terms, axis = some terms → terms = []) : ofAxis axis = .ok none := by
  cases axis with
  | none => rfl
  | some terms =>
      obtain rfl := h terms rfl
      rfl

private theorem axesOf_of_isBare (hbare : t.IsBare) : axesOf (t.setAxes none none) = axesOf t := by
  have hkey : ofAxis t.keyAxis = .ok none := ofAxis_of_empty fun axis h => hbare axis (.inl h)
  have hvalue : ofAxis t.valueAxis = .ok none := ofAxis_of_empty fun axis h => hbare axis (.inr h)
  obtain ⟨id, key, category, parent, constraints, casts, customs, keyAxis, valueAxis⟩ := t
  simp only [Term.setAxes, axesOf, hkey, hvalue, ofAxis]

private theorem levels_of_alike (halike : List.Forall₂ Term.Alike h h') :
    (levels h').mapError (·.failure) = (levels h).mapError (·.failure) := by
  induction halike with
  | nil => rfl
  | @cons t u general general' htu _ ih =>
      rw [levels_cons, levels_cons, htu.axes]
      -- The terms left unread may differ, so that only the failures of both sides are the same.
      cases hl : levels general with
      | error stop =>
          rw [hl] at ih
          cases hl' : levels general' with
          | error stop' =>
              rw [hl'] at ih
              exact ih
          | ok ls' =>
              rw [hl'] at ih
              contradiction
      | ok ls =>
          rw [hl] at ih
          obtain hl' : levels general' = .ok ls := mapError_eq_ok_iff.mp ih
          rw [hl']
          cases haxes : axesOf t with
          | error f => rfl
          | ok found =>
              obtain ⟨c, axes⟩ := found
              have hextend : extend c axes u ls = extend c axes t ls := by
                cases ls <;> simp only [extend, htu.absorb c axes _ haxes]
              simp only [hextend]

theorem ofHierarchy_of_alike (halike : List.Forall₂ Term.Alike h h') :
    (ofHierarchy h').mapError (·.failure) = (ofHierarchy h).mapError (·.failure) := by
  have hlevels := levels_of_alike halike
  rw [ofHierarchy_eq, ofHierarchy_eq]
  cases hl : levels h <;> cases hl' : levels h' <;> rw [hl, hl'] at hlevels
  · exact congrArg Except.error (Except.error.inj hlevels)
  · contradiction
  · contradiction
  · exact congrArg (fun ls => Except.ok (link ls)) (Except.ok.inj hlevels)

end Record

namespace Term.Alike

variable {t u : Term}

theorem refl (t : Term) : t.Alike t :=
  ⟨rfl, fun _ _ _ _ => rfl⟩

theorem setAxes (hbare : t.IsBare) : t.Alike (t.setAxes none none) :=
  ⟨Record.axesOf_of_isBare hbare, fun c axes r _ => Record.absorb_setAxes c axes t none none r⟩

/-- Constraints that are not read make no difference. -/
theorem of_retunes (htu : t.Retunes u) (hread : u.constraintsRead = t.constraintsRead) :
    t.Alike u where
  axes := Record.axesOf_of_retunes htu
  absorb c axes r haxes := by
    have hc : Category.ofName? t.category = some c :=
      Category.ofName?_eq_some_iff.mpr (Record.axesOf_ok haxes).1
    have hsame : u.constraints.readAs c = t.constraints.readAs c := by
      simpa only [constraintsRead, htu.category, hc, Option.map_some, Option.some.injEq] using hread
    rw [← Record.absorb_readAs c axes u, ← Record.absorb_readAs c axes t, hsame, ← htu]

end Term.Alike

namespace Hierarchy

variable {h : Hierarchy}

/-- Options change nothing that is read of the terms of the hierarchy. -/
def Ignores (h : Hierarchy) (c : Constraints) : Prop :=
  (h.inject c).map Term.constraintsRead = h.map Term.constraintsRead

private theorem alike_of_retunes {h' : Hierarchy} (hretunes : List.Forall₂ Term.Retunes h h')
    (hread : h'.map Term.constraintsRead = h.map Term.constraintsRead) :
    List.Forall₂ Term.Alike h h' := by
  induction hretunes with
  | nil => exact .nil
  | cons htu _ ih =>
      obtain ⟨hhead, htail⟩ := List.cons.inj hread
      exact .cons (.of_retunes htu hhead) (ih htail)

theorem Ignores.alike {c : Constraints} (h' : h.Ignores c) :
    List.Forall₂ Term.Alike h (h.inject c) :=
  alike_of_retunes (retunes_inject c h) h'

/-- No options are read of objects. -/
theorem ignores_of_objects (hobjects : ∀ t ∈ h, t.category = Category.object.name)
    (c : Constraints) : h.Ignores c := by
  have hread {g : Hierarchy} (hg : ∀ t ∈ g, t.category = Category.object.name) :
      g.map Term.constraintsRead =
        g.map fun t => (Category.ofName? t.category).map fun _ => {} := by
    refine List.map_congr_left fun t ht => ?_
    rw [Term.constraintsRead, hg t ht]
    rfl
  rw [Ignores, hread hobjects, hread (category_of_inject hobjects c)]
  exact map_of_retunes (fun t u htu => by rw [htu.category]) (retunes_inject c h)

end Hierarchy

end TermRules
