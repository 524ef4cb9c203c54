import TermRules.Compiler
import TermRules.Proofs.Pairing
import TermRules.Proofs.Success

/-!
Batches of any depth. Two are paired if they have the same structure and their members are related
one by one. To go through a batch with a computation that can fail is to go through its members in
order: the first of them that fails makes the whole fail.
-/

namespace TermRules

namespace Batch

variable {α β γ ε : Type} {R : α → β → Prop} {b : Batch α}

/-- What a batch has whenever the batches in it have it, every batch has. -/
theorem induct {P : Batch α → Prop} (one : ∀ a, P (.one a))
    (many : ∀ bs, (∀ b ∈ bs, P b) → P (.many bs)) (b : Batch α) : P b :=
  match b with
  | .one a => one a
  | .many bs => many bs fun b hb =>
      have := List.sizeOf_lt_of_mem hb
      induct one many b
termination_by sizeOf b

/-- Both have the same structure, and the members at the same place are related. -/
inductive Paired (R : α → β → Prop) : Batch α → Batch β → Prop where
  | one {x : α} {y : β} (h : R x y) : Paired R (.one x) (.one y)
  | many {xs : List (Batch α)} {ys : List (Batch β)} (h : List.Forall₂ (Paired R) xs ys) :
      Paired R (.many xs) (.many ys)

mutual

/-- The members in order. -/
def members : Batch α → List α
  | .one a => [a]
  | .many bs => membersOfAll bs

def membersOfAll : List (Batch α) → List α
  | [] => []
  | b :: bs => members b ++ membersOfAll bs

end

mutual

/-- Puts what the computation gives in place of each member. -/
def traverse (f : α → Except ε β) : Batch α → Except ε (Batch β)
  | .one a => .one <$> f a
  | .many bs => .many <$> traverseAll f bs

def traverseAll (f : α → Except ε β) : List (Batch α) → Except ε (List (Batch β))
  | [] => .ok []
  | b :: bs => do
      let c ← traverse f b
      return c :: (← traverseAll f bs)

end

theorem membersOfAll_eq (bs : List (Batch α)) : membersOfAll bs = bs.flatMap members := by
  induction bs with
  | nil => rfl
  | cons b bs ih => rw [membersOfAll, ih, List.flatMap_cons]

theorem traverseAll_eq (f : α → Except ε β) (bs : List (Batch α)) :
    traverseAll f bs = bs.mapM (traverse f) := by
  induction bs with
  | nil => rfl
  | cons b bs ih => rw [traverseAll, ih, List.mapM_cons]

theorem paired_one_iff {x : α} {c : Batch β} : Paired R (.one x) c ↔ ∃ y, R x y ∧ .one y = c := by
  constructor
  · rintro ⟨h⟩
    exact ⟨_, h, rfl⟩
  · rintro ⟨y, h, rfl⟩
    exact .one h

theorem paired_many_iff {xs : List (Batch α)} {c : Batch β} :
    Paired R (.many xs) c ↔ ∃ ys, List.Forall₂ (Paired R) xs ys ∧ .many ys = c := by
  constructor
  · intro h
    cases h with
    | many h => exact ⟨_, h, rfl⟩
  · rintro ⟨ys, h, rfl⟩
    exact .many h

theorem paired_congr {S : α → β → Prop} {c : Batch β}
    (h : ∀ x ∈ b.members, ∀ y, R x y ↔ S x y) : Paired R b c ↔ Paired S b c := by
  induction b using induct generalizing c with
  | one x => simp only [paired_one_iff, h x (by simp [members])]
  | many xs ih =>
      simp only [paired_many_iff]
      refine exists_congr fun ys => and_congr_left fun _ => ?_
      refine forall₂_congr_of_mem fun b hb c => ih b hb fun x hx => h x ?_
      rw [members, membersOfAll_eq]
      exact List.mem_flatMap.mpr ⟨b, hb, hx⟩

theorem traverse_eq_ok_iff {f : α → Except ε β} {c : Batch β} :
    b.traverse f = .ok c ↔ Paired (fun x y => f x = .ok y) b c := by
  induction b using induct generalizing c with
  | one x => rw [traverse, map_eq_ok_iff, paired_one_iff]
  | many xs ih =>
      rw [traverse, map_eq_ok_iff, paired_many_iff, traverseAll_eq]
      simp only [mapM_eq_ok_iff]
      exact exists_congr fun ys => and_congr_left fun _ =>
        forall₂_congr_of_mem fun b hb c => ih b hb

/-- The members of what comes out are what the computation gives for the members, one
after another. -/
theorem members_traverse (f : α → Except ε β) (b : Batch α) :
    members <$> b.traverse f = b.members.mapM f := by
  induction b using induct with
  | one x =>
      rw [traverse, members, List.mapM_cons]
      cases f x <;> rfl
  | many xs ih =>
      rw [traverse, members]
      induction xs with
      | nil => rfl
      | cons b bs ihbs =>
          obtain ⟨hb, hbs⟩ := List.forall_mem_cons.mp ih
          rw [traverseAll, membersOfAll, List.mapM_append, ← hb, ← ihbs hbs]
          cases b.traverse f <;> cases traverseAll f bs <;> rfl

theorem traverse_eq_error_iff {f : α → Except ε β} {e : ε} : b.traverse f = .error e ↔
    ∃ before x behind, b.members = before ++ x :: behind ∧ (∀ y ∈ before, ∃ c, f y = .ok c) ∧
      f x = .error e := by
  rw [← mapM_eq_error_iff, ← members_traverse, map_eq_error_iff]

/-- Pairs by way of a batch in between. -/
theorem paired_comp_iff {S : β → γ → Prop} {d : Batch γ} :
    (∃ c, Paired R b c ∧ Paired S c d) ↔ Paired (fun x z => ∃ y, R x y ∧ S y z) b d := by
  induction b using induct generalizing d with
  | one x =>
      simp only [paired_one_iff]
      constructor
      · rintro ⟨c, ⟨y, hxy, rfl⟩, hyd⟩
        obtain ⟨z, hyz, rfl⟩ := paired_one_iff.mp hyd
        exact ⟨z, ⟨y, hxy, hyz⟩, rfl⟩
      · rintro ⟨z, ⟨y, hxy, hyz⟩, rfl⟩
        exact ⟨.one y, ⟨y, hxy, rfl⟩, .one hyz⟩
  | many xs ih =>
      have hlists (zs : List (Batch γ)) :
          List.Forall₂ (fun b d => ∃ c, Paired R b c ∧ Paired S c d) xs zs ↔
            List.Forall₂ (Paired fun x z => ∃ y, R x y ∧ S y z) xs zs :=
        forall₂_congr_of_mem fun b hb d => ih b hb
      simp only [paired_many_iff]
      constructor
      · rintro ⟨c, ⟨ys, hxy, rfl⟩, hyd⟩
        obtain ⟨zs, hyz, rfl⟩ := paired_many_iff.mp hyd
        exact ⟨zs, (hlists zs).mp (forall₂_comp_iff.mp ⟨ys, hxy, hyz⟩), rfl⟩
      · rintro ⟨zs, hxz, rfl⟩
        obtain ⟨ys, hxy, hyz⟩ := forall₂_comp_iff.mpr ((hlists zs).mpr hxz)
        exact ⟨.many ys, ⟨ys, hxy, rfl⟩, .many hyz⟩

end Batch

end TermRules
