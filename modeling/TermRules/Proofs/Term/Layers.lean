import TermRules.Proofs.Term.Overlay

/-!
Options laid over a hierarchy in layers. Which term an axis reaches does not depend on constraints,
and two axes reach different constraints of it; so a second layer merges with the first, and the
axes may be taken in any order.
-/

namespace TermRules

namespace Constraints

/-- `above` laid over `below` along all axes. -/
def overlay (below above : Constraints) : Constraints where
  length := above.length.or below.length
  regex := above.regex.or below.regex
  range := above.range.or below.range
  decimals := above.decimals.or below.decimals
  size := above.size.or below.size
  target := below.target.overlay above.target

/-- The constraints of some of the axes; those of the others are not set. -/
def along (on : Axis → Bool) (c : Constraints) : Constraints where
  length := if on .scalar then c.length else none
  regex := if on .scalar then c.regex else none
  range := if on .scalar then c.range else none
  decimals := if on .scalar then c.decimals else none
  size := if on .list then c.size else none
  target := if on .reference then c.target else {}

private theorem overlay_self (c : Constraints) : c.overlay c = c := by
  simp [overlay, Target.overlay]

end Constraints

namespace Axis

variable (a : Axis) (c d : Constraints) (t : Term)

private theorem overlay_overlay : a.overlay d (a.overlay c t) = a.overlay (c.overlay d) t := by
  cases a <;>
    simp [overlay, Constraints.overlayScalar, Constraints.overlayList, Constraints.overlayReference,
      Constraints.overlay, Target.overlay, Option.or_assoc]

private theorem overlay_comm {a b : Axis} (hab : a ≠ b) :
    a.overlay c (b.overlay d t) = b.overlay d (a.overlay c t) := by
  cases a <;> cases b <;> first | exact absurd rfl hab | rfl

/-- The constraints of some axes reach a term at once or axis by axis. -/
theorem foldl_overlay (on : Axis → Bool) :
    [scalar, list, reference].foldl (fun t a => if on a then a.overlay c t else t) t =
      { t with constraints := t.constraints.overlay (c.along on) } := by
  rw [Constraints.along]
  cases t
  cases hs : on .scalar <;> cases hl : on .list <;> cases hr : on .reference <;>
    simp only [List.foldl_cons, List.foldl_nil, hs, hl, hr, Bool.false_eq_true,
      if_true, if_false] <;> rfl

private theorem selects_overlay (b : Axis) : b.selects (a.overlay c t) = b.selects t :=
  (Term.Retunes.overlay a c t).selects b

end Axis

namespace Hierarchy

section Last

variable {α : Type} {p q : α → Bool} {f g : α → α}

private theorem any_updateLast (hf : ∀ x, q (f x) = q x) (xs : List α) :
    (updateLast p f xs).any q = xs.any q :=
  any_congr_of_map (map_updateLast hf xs)

private theorem updateLast_updateLast (hf : ∀ x, p (f x) = p x) (xs : List α) :
    updateLast p g (updateLast p f xs) = updateLast p (g ∘ f) xs := by
  induction xs with
  | nil => rfl
  | cons x xs ih =>
      cases hany : xs.any p with
      | true => simp [updateLast, hany, any_updateLast hf, ih]
      | false => cases hx : p x <;> simp [updateLast, hany, hx, hf]

private theorem updateLast_comm (hf : ∀ x, q (f x) = q x) (hg : ∀ x, p (g x) = p x)
    (hfg : ∀ x, f (g x) = g (f x)) (xs : List α) :
    updateLast p f (updateLast q g xs) = updateLast q g (updateLast p f xs) := by
  induction xs with
  | nil => rfl
  | cons x xs ih =>
      -- Both changes keep what is selected, so neither moves the place of the other.
      cases hp : xs.any p <;> cases hq : xs.any q <;> cases hpx : p x <;> cases hqx : q x <;>
        simp [updateLast, any_updateLast hf, any_updateLast hg, hp, hq, hpx, hqx, hf, hg, hfg, ih]

private theorem lastIndex?_eq_none_iff {xs : List α} :
    lastIndex? p xs = none ↔ xs.any p = false := by
  induction xs with
  | nil => simp [lastIndex?]
  | cons x xs ih =>
      rw [lastIndex?, List.any_cons]
      cases hlast : lastIndex? p xs with
      | none => simp [ih.mp hlast]
      | some i =>
          have hany : xs.any p = true := by simpa [hlast] using ih
          simp [hany]

/-- The position is that of a selected element behind which none is selected. -/
theorem lastIndex?_eq_some_iff {xs : List α} {i : Nat} : lastIndex? p xs = some i ↔
    ∃ x, xs[i]? = some x ∧ p x = true ∧ ∀ j y, i < j → xs[j]? = some y → p y = false := by
  induction xs generalizing i with
  | nil => simp [lastIndex?]
  | cons x xs ih =>
      cases i with
      | succ i =>
          have hbehind : (∀ j y, i + 1 < j → (x :: xs)[j]? = some y → p y = false) ↔
              ∀ j y, i < j → xs[j]? = some y → p y = false := by
            refine ⟨fun h j y hj hy => h (j + 1) y (by omega) hy, fun h j y hj hy => ?_⟩
            obtain ⟨j, rfl⟩ := Nat.exists_eq_succ_of_ne_zero (by omega : j ≠ 0)
            exact h j y (by omega) hy
          rw [hbehind, List.getElem?_cons_succ, ← ih, lastIndex?]
          cases lastIndex? p xs with
          | none => cases p x <;> simp
          | some k => simp
      | zero =>
          have hbehind : (∀ j y, 0 < j → (x :: xs)[j]? = some y → p y = false) ↔
            xs.any p = false := by
            rw [List.any_eq_false]
            refine ⟨fun h y hy => ?_, fun h j y hj hy => ?_⟩
            · obtain ⟨j, hj⟩ := List.mem_iff_getElem?.mp hy
              simp [h (j + 1) y (by omega) hj]
            · obtain ⟨j, rfl⟩ := Nat.exists_eq_succ_of_ne_zero (by omega : j ≠ 0)
              simpa using h y (List.mem_of_getElem? hy)
          rw [hbehind, ← lastIndex?_eq_none_iff, lastIndex?]
          cases lastIndex? p xs with
          | none => cases hx : p x <;> simp [hx]
          | some k => simp

private theorem getElem?_updateLast (xs : List α) (i : Nat) : (updateLast p f xs)[i]? =
    xs[i]?.map fun x => if lastIndex? p xs = some i then f x else x := by
  induction xs generalizing i with
  | nil => rfl
  | cons x xs ih =>
      rw [updateLast, lastIndex?]
      cases hlast : lastIndex? p xs with
      | none =>
          rw [lastIndex?_eq_none_iff.mp hlast]
          cases hx : p x <;> cases i <;> simp
      | some k =>
          have hany : xs.any p = true := by
            by_contra hnone
            rw [Bool.not_eq_true] at hnone
            rw [lastIndex?_eq_none_iff.mpr hnone] at hlast
            contradiction
          rw [hany]
          cases i <;> simp [ih, hlast]

private theorem lastIndex?_congr {xs ys : List α} (h : ys.map p = xs.map p) :
    lastIndex? p ys = lastIndex? p xs := by
  have hmap : ∀ zs : List α, lastIndex? p zs = lastIndex? id (zs.map p) := by
    intro zs
    induction zs with
    | nil => rfl
    | cons z zs ih => simp [lastIndex?, ih]
  rw [hmap, h, ← hmap]

end Last

section Layers

variable (a : Axis) (c d : Constraints) (h : Hierarchy)

private theorem touched?_of_retunes {h h' : Hierarchy} (hretunes : List.Forall₂ Term.Retunes h h') :
    h'.touched? a = h.touched? a :=
  lastIndex?_congr (map_of_retunes (fun _ _ htu => htu.selects a) hretunes)

private theorem injectAxis_injectAxis :
    injectAxis a d (injectAxis a c h) = injectAxis a (c.overlay d) h := by
  rw [injectAxis, injectAxis, updateLast_updateLast fun t => a.selects_overlay c t a]
  exact congrArg (updateLast a.selects · h) (funext (a.overlay_overlay c d))

private theorem injectAxis_comm {a b : Axis} (hab : a ≠ b) :
    injectAxis a c (injectAxis b d h) = injectAxis b d (injectAxis a c h) :=
  updateLast_comm (fun t => a.selects_overlay c t b) (fun t => b.selects_overlay d t a)
    (Axis.overlay_comm c d · hab) h

/-- Two layers merge axis by axis once the axes of the second are moved past those of the first. -/
theorem inject_inject : inject d (inject c h) = inject (c.overlay d) h := by
  have hscalar : ∀ h, injectAxis .scalar d (injectAxis .reference c (injectAxis .list c h)) =
      injectAxis .reference c (injectAxis .list c (injectAxis .scalar d h)) := fun h => by
    rw [injectAxis_comm d c _ (by decide), injectAxis_comm d c _ (by decide)]
  have hlist : ∀ h, injectAxis .list d (injectAxis .reference c h) =
      injectAxis .reference c (injectAxis .list d h) := fun h => injectAxis_comm d c h (by decide)
  simp only [inject, hscalar, hlist, injectAxis_injectAxis]

private theorem foldl_injectAxis_of_perm {axes : List Axis}
    (hperm : axes.Perm [.scalar, .list, .reference]) :
    axes.foldl (fun h a => injectAxis a c h) h = inject c h := by
  apply hperm.foldl_eq'
  intro a _ b _ h
  by_cases hab : a = b
  · rw [hab]
  · exact injectAxis_comm c c h (Ne.symm hab)

private theorem getElem?_injectAxis (i : Nat) : (injectAxis a c h)[i]? =
    h[i]?.map fun t => if h.touched? a == some i then a.overlay c t else t := by
  simp only [beq_iff_eq]
  exact getElem?_updateLast h i

/-- A term takes the constraints of just the axes that reach it. -/
theorem getElem?_inject (i : Nat) : (inject c h)[i]? = h[i]?.map fun t =>
    { t with constraints := t.constraints.overlay (c.along fun a => h.touched? a == some i) } := by
  have hscalar := retunes_injectAxis .scalar c h
  have hlist := retunes_injectAxis .list c (injectAxis .scalar c h)
  rw [inject, getElem?_injectAxis, getElem?_injectAxis, getElem?_injectAxis,
    touched?_of_retunes _ hlist, touched?_of_retunes _ hscalar, touched?_of_retunes _ hscalar]
  cases h[i]? with
  | none => rfl
  | some t =>
      exact congrArg some (Axis.foldl_overlay c t fun a => h.touched? a == some i)

/-- Options overlay a hierarchy as an action does: two layers are one, a repeated layer changes
nothing and the axes commute. A layer reaches the last term of each axis, and there just what
it sets. -/
theorem inject_acts : inject d (inject c h) = inject (c.overlay d) h ∧
    inject c (inject c h) = inject c h ∧
    (∀ axes : List Axis, axes.Perm [.scalar, .list, .reference] →
      axes.foldl (fun h a => injectAxis a c h) h = inject c h) ∧
    (inject c h).length = h.length ∧
    (∀ i : Nat, (inject c h)[i]? = h[i]?.map fun t : Term =>
      { t with constraints := t.constraints.overlay (c.along fun a => h.touched? a == some i) }) ∧
    ∀ a i, h.touched? a = some i ↔ ∃ t, h[i]? = some t ∧ a.selects t = true ∧
      ∀ j u, i < j → h[j]? = some u → a.selects u = false := by
  refine ⟨inject_inject c d h, ?_, fun axes => foldl_injectAxis_of_perm c h, ?_,
    getElem?_inject c h, fun a i => lastIndex?_eq_some_iff⟩
  · rw [inject_inject, Constraints.overlay_self]
  · exact (retunes_inject c h).length_eq.symm

/-- A list of texts that are keys of references. -/
def keyList : Hierarchy :=
  [{ id := "key", key := Vocabulary.referenceKey, category := "text" },
    { id := "text", key := Vocabulary.text, category := "text" },
    { id := "list", key := Vocabulary.list, category := "list" }]

/-- Constraints of all axes at once. -/
def codes : Constraints where
  regex := some ["[a-z]+"]
  size := some { lower := .int 0, upper := .int 5 }
  target := { collection := some "codes" }

theorem inject_acts_keyList : [Axis.reference, .list, .scalar].Perm [.scalar, .list, .reference] ∧
    [Axis.reference, .list, .scalar].foldl (fun h a => injectAxis a codes h) keyList =
    inject codes keyList ∧ (inject codes keyList).map Term.constraints =
      [{ target := codes.target }, { regex := codes.regex }, { size := codes.size }] :=
  ⟨by decide, (inject_acts codes {} keyList).2.2.1 _ (by decide), rfl⟩

end Layers

end Hierarchy

end TermRules
