import TermRules.Proofs.Pairing
import TermRules.Term.Overlay

/-!
What options leave alone. Laying them over a hierarchy changes the constraints of some of its terms
and nothing else: neither how many terms there are nor anything else about a term.
-/

namespace TermRules

/-- `u` is the term `t` but for its constraints. -/
def Term.Retunes (t u : Term) : Prop :=
  { t with constraints := u.constraints } = u

namespace Term.Retunes

variable {t u v : Term}

private theorem refl (t : Term) : t.Retunes t := by
  cases t
  rfl

theorem trans (h : t.Retunes u) (h' : u.Retunes v) : t.Retunes v := by
  rw [Retunes] at h h' ⊢
  rw [← h', ← h]

theorem overlay (a : Axis) (c : Constraints) (t : Term) : t.Retunes (a.overlay c t) := by
  cases a <;> rfl

private theorem key (h : t.Retunes u) : u.key = t.key := by rw [← h]

theorem category (h : t.Retunes u) : u.category = t.category := by rw [← h]

theorem axes (h : t.Retunes u) : u.keyAxis = t.keyAxis ∧ u.valueAxis = t.valueAxis := by
  rw [← h]
  exact ⟨rfl, rfl⟩

theorem selects (h : t.Retunes u) (a : Axis) : a.selects u = a.selects t := by
  cases a with
  | scalar | list => simp only [Axis.selects, Term.isList, h.category]
  | reference => rw [Axis.selects, Axis.selects, h.key]

end Term.Retunes

namespace Hierarchy

section UpdateLast

variable {α β : Type} {p : α → Bool} {f : α → α}

private theorem updateLast_of_none {xs : List α} (h : ∀ x ∈ xs, p x = false) :
    updateLast p f xs = xs := by
  cases xs with
  | nil => rfl
  | cons x xs =>
      obtain ⟨hx, hxs⟩ := List.forall_mem_cons.mp h
      have hany : xs.any p = false := by simpa using hxs
      simp [updateLast, hany, hx]

/-- The last member that is selected is in the second part, if that has any. -/
theorem updateLast_append (xs ys : List α) : updateLast p f (xs ++ ys) =
    if ys.any p then xs ++ updateLast p f ys else updateLast p f xs ++ ys := by
  induction xs with
  | nil =>
      split
      · rfl
      · rename_i hnone
        exact updateLast_of_none (by simpa using hnone)
  | cons x xs ih =>
      rw [List.cons_append, updateLast, List.any_append, ih, updateLast]
      cases ys.any p <;> cases xs.any p <;> simp

theorem exists_last_of_any {xs : List α} (hany : xs.any p = true) :
    ∃ front x back, xs = front ++ x :: back ∧ p x = true ∧ back.any p = false := by
  induction xs with
  | nil => contradiction
  | cons y ys ih =>
      cases hys : ys.any p with
      | true =>
          obtain ⟨front, x, back, rfl, hx, hback⟩ := ih hys
          exact ⟨y :: front, x, back, rfl, hx, hback⟩
      | false =>
          have hy : p y = true := by simpa [hys] using hany
          exact ⟨[], y, ys, rfl, hy, hys⟩

private theorem updateLast_eq_self (h : ∀ x, f x = x) (xs : List α) : updateLast p f xs = xs := by
  induction xs with
  | nil => rfl
  | cons x xs ih => simp [updateLast, h, ih]

/-- What the change leaves alone is left alone in the whole list. -/
theorem map_updateLast {g : α → β} (h : ∀ x, g (f x) = g x) (xs : List α) :
    (updateLast p f xs).map g = xs.map g := by
  induction xs with
  | nil => rfl
  | cons x xs ih =>
      rw [updateLast]
      split
      · rw [List.map_cons, ih, List.map_cons]
      · split <;> simp [h]

theorem any_congr_of_map {xs ys : List α} (h : ys.map p = xs.map p) : ys.any p = xs.any p := by
  have hany := congrArg (fun flags => flags.any id) h
  simpa only [List.any_map, Function.id_comp] using hany

end UpdateLast

private theorem forall₂_updateLast {α : Type} {R : α → α → Prop} {p : α → Bool} {f : α → α}
    (hrefl : ∀ x, R x x) (hf : ∀ x, R x (f x)) (xs : List α) :
    List.Forall₂ R xs (updateLast p f xs) := by
  have : Std.Refl R := ⟨hrefl⟩
  induction xs with
  | nil => exact .nil
  | cons x xs ih =>
      rw [updateLast]
      split
      · exact .cons (hrefl x) ih
      · refine .cons ?_ (List.forall₂_refl xs)
        split
        · exact hf x
        · exact hrefl x

/-- What does not depend on constraints is the same all along the hierarchy. -/
theorem map_of_retunes {β : Type} {g : Term → β} (hg : ∀ t u : Term, t.Retunes u → g u = g t)
    {h h' : Hierarchy} (hretunes : List.Forall₂ Term.Retunes h h') : h'.map g = h.map g := by
  induction hretunes with
  | nil => rfl
  | cons htu _ ih => rw [List.map_cons, hg _ _ htu, ih, List.map_cons]

theorem keys_of_retunes {h h' : Hierarchy} (hretunes : List.Forall₂ Term.Retunes h h') :
    h'.map Term.key = h.map Term.key :=
  map_of_retunes (fun _ _ htu => htu.key) hretunes

theorem categories_of_retunes {h h' : Hierarchy} (hretunes : List.Forall₂ Term.Retunes h h') :
    h'.map Term.category = h.map Term.category :=
  map_of_retunes (fun _ _ htu => htu.category) hretunes

theorem retunes_injectAxis (a : Axis) (c : Constraints) (h : Hierarchy) :
    List.Forall₂ Term.Retunes h (injectAxis a c h) :=
  forall₂_updateLast Term.Retunes.refl (Term.Retunes.overlay a c) h

theorem retunes_inject (c : Constraints) (h : Hierarchy) :
    List.Forall₂ Term.Retunes h (inject c h) := by
  have htrans : ∀ t u v : Term, t.Retunes u → u.Retunes v → t.Retunes v := fun _ _ _ => .trans
  exact forall₂_trans htrans (retunes_injectAxis .scalar c h)
    (forall₂_trans htrans (retunes_injectAxis .list c _) (retunes_injectAxis .reference c _))

theorem any_selects_of_retunes {h h' : Hierarchy} (hretunes : List.Forall₂ Term.Retunes h h')
    (a : Axis) : h'.any a.selects = h.any a.selects :=
  any_congr_of_map (map_of_retunes (fun _ _ htu => htu.selects a) hretunes)

theorem injectAxis_append (a : Axis) (c : Constraints) (inner outer : Hierarchy) :
    injectAxis a c (inner ++ outer) =
      if outer.any a.selects then inner ++ injectAxis a c outer else injectAxis a c inner ++
      outer :=
  updateLast_append inner outer

private theorem injectAxis_of_none {a : Axis} {h : Hierarchy} (hnone : h.any a.selects = false)
    (c : Constraints) : injectAxis a c h = h :=
  updateLast_of_none (by simpa using hnone)

private theorem overlay_empty (a : Axis) (t : Term) : a.overlay {} t = t := by
  cases a <;> cases t <;> rfl

theorem injectAxis_empty (a : Axis) (h : Hierarchy) : injectAxis a {} h = h :=
  updateLast_eq_self (overlay_empty a) h

/-- Over a hierarchy in a container of lists the size goes to the container and all else to the
hierarchy, as if it stood alone. -/
theorem inject_container {inner outer : Hierarchy} (c : Constraints)
    (hinner : inner.any Term.isList = false) (hlists : outer.all Term.isList = true)
    (hne : outer ≠ []) (htargets : outer.any Axis.reference.selects = false) :
    inject c (inner ++ outer) = inject c inner ++ injectAxis .list c outer := by
  have hscalar : outer.any Axis.scalar.selects = false := by
    simpa [Axis.selects] using hlists
  have hlist : outer.any Axis.list.selects = true := by
    obtain ⟨t, rest, rfl⟩ := List.exists_cons_of_ne_nil hne
    simp only [List.all_cons, Bool.and_eq_true] at hlists
    simp [Axis.selects, hlists.1]
  have hnone : (injectAxis .scalar c inner).any Axis.list.selects = false :=
    (any_selects_of_retunes (retunes_injectAxis .scalar c inner) .list).trans hinner
  have hreference : (injectAxis .list c outer).any Axis.reference.selects = false :=
    (any_selects_of_retunes (retunes_injectAxis .list c outer) .reference).trans htargets
  simp only [inject, injectAxis_append, hscalar, hlist, hreference, injectAxis_of_none hnone,
    Bool.false_eq_true, if_true, if_false]

theorem inject_ne_nil {h : Hierarchy} (hne : h ≠ []) (c : Constraints) : inject c h ≠ [] := by
  intro hempty
  have hretunes := retunes_inject c h
  rw [hempty, List.forall₂_nil_right_iff] at hretunes
  exact hne hretunes

theorem category_of_inject {h : Hierarchy} {name : String} (hname : ∀ t ∈ h, t.category = name)
    (c : Constraints) : ∀ u ∈ inject c h, u.category = name := by
  intro u hu
  obtain ⟨t, ht, htu⟩ := exists_of_mem_right (retunes_inject c h) hu
  rw [htu.category, hname t ht]

/-- Options laid over a hierarchy under a container change the two parts in place. -/
theorem inject_append (c : Constraints) (inner outer : Hierarchy) :
    ∃ inner' outer', inject c (inner ++ outer) = inner' ++ outer' ∧
      List.Forall₂ Term.Retunes inner inner' ∧ List.Forall₂ Term.Retunes outer outer' := by
  have h := retunes_inject c (inner ++ outer)
  have hinner := List.forall₂_take inner.length h
  have houter := List.forall₂_drop inner.length h
  rw [List.take_left] at hinner
  rw [List.drop_left] at houter
  exact ⟨_, _, (List.take_append_drop inner.length _).symm, hinner, houter⟩

end Hierarchy

end TermRules
