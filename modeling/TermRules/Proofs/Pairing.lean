import Mathlib.Data.List.Forall2

/-!
Lists paired member by member. What a relation says of each pair is carried from one list
to the other.
-/

namespace TermRules

variable {α β : Type} {R : α → β → Prop} {xs : List α} {ys : List β}

theorem exists_of_mem_right (h : List.Forall₂ R xs ys) {y : β} (hy : y ∈ ys) : ∃ x ∈ xs, R x y := by
  induction h with
  | nil => simp at hy
  | @cons x z xs ys hxz _ ih =>
      rcases List.mem_cons.mp hy with rfl | hy
      · exact ⟨x, by simp, hxz⟩
      · obtain ⟨x', hx', hR⟩ := ih hy
        exact ⟨x', List.mem_cons_of_mem x hx', hR⟩

/-- A relation between members of one list holds as often as the one that it is turned into. -/
theorem pairwise_iff_of_forall₂ {S : α → α → Prop} {T : β → β → Prop}
    (hST : ∀ x y x' y', R x x' → R y y' → (S x y ↔ T x' y')) (h : List.Forall₂ R xs ys) :
    xs.Pairwise S ↔ ys.Pairwise T := by
  induction h with
  | nil => simp
  | @cons x y xs ys hxy hrest ih =>
      rw [List.pairwise_cons, List.pairwise_cons, ih]
      refine and_congr_left fun _ => ⟨fun hx z hz => ?_, fun hy z hz => ?_⟩
      · obtain ⟨w, hw, hwz⟩ := exists_of_mem_right hrest hz
        exact (hST x w y z hxy hwz).mp (hx w hw)
      · obtain ⟨w, hw, hwz⟩ := exists_of_mem_right (List.Forall₂.flip (R := flip R) hrest) hz
        exact (hST x z y w hxy hwz).mpr (hy w hw)

theorem forall₂_trans {R : α → α → Prop} (htrans : ∀ x y z, R x y → R y z → R x z)
    {xs ys zs : List α} (h : List.Forall₂ R xs ys) (h' : List.Forall₂ R ys zs) :
    List.Forall₂ R xs zs := by
  induction h generalizing zs with
  | nil => exact h'
  | cons hxy _ ih =>
      obtain ⟨z, rest, hyz, hrest, rfl⟩ := List.forall₂_cons_left_iff.mp h'
      exact .cons (htrans _ _ _ hxy hyz) (ih hrest)

theorem forall₂_congr_of_mem {S : α → β → Prop} (h : ∀ x ∈ xs, ∀ y, R x y ↔ S x y) :
    List.Forall₂ R xs ys ↔ List.Forall₂ S xs ys := by
  induction xs generalizing ys with
  | nil => simp only [List.forall₂_nil_left_iff]
  | cons x xs ih =>
      obtain ⟨hx, hxs⟩ := List.forall_mem_cons.mp h
      simp only [List.forall₂_cons_left_iff, hx, ih hxs]

theorem forall₂_comp_iff {γ : Type} {S : β → γ → Prop} {zs : List γ} :
    (∃ ys, List.Forall₂ R xs ys ∧ List.Forall₂ S ys zs) ↔
      List.Forall₂ (fun x z => ∃ y, R x y ∧ S y z) xs zs := by
  constructor
  · rintro ⟨ys, hxy, hyz⟩
    induction hxy generalizing zs with
    | nil =>
        cases hyz
        exact .nil
    | cons hxy _ ih =>
        obtain ⟨z, rest, hz, hrest, rfl⟩ := List.forall₂_cons_left_iff.mp hyz
        exact .cons ⟨_, hxy, hz⟩ (ih hrest)
  · intro h
    induction h with
    | nil => exact ⟨[], .nil, .nil⟩
    | cons hxz _ ih =>
        obtain ⟨y, hxy, hyz⟩ := hxz
        obtain ⟨ys, hxys, hyzs⟩ := ih
        exact ⟨y :: ys, .cons hxy hxys, .cons hyz hyzs⟩

end TermRules
