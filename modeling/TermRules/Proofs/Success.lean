import Mathlib.Data.List.Forall2
import TermRules.Failure

/-!
Computations that can fail, taken apart. Each lemma says what a success of the whole demands of its
parts, or which part a failure comes from.
-/

namespace TermRules

variable {ε ε' α β : Type}

theorem bind_eq_ok_iff {x : Except ε α} {f : α → Except ε β} {b : β} :
    x >>= f = .ok b ↔ ∃ a, x = .ok a ∧ f a = .ok b := by
  cases x <;> simp [bind, Except.bind]

theorem bind_unit_eq_ok_iff {x : Except ε Unit} {f : Unit → Except ε β} {b : β} :
    x >>= f = .ok b ↔ x = .ok () ∧ f () = .ok b := by
  cases x <;> simp [bind, Except.bind]

theorem map_eq_ok_iff {f : α → β} {x : Except ε α} {b : β} :
    f <$> x = .ok b ↔ ∃ a, x = .ok a ∧ f a = b := by
  cases x <;> simp [Functor.map, Except.map]

theorem pure_eq_ok_iff {a b : α} : (pure a : Except ε α) = .ok b ↔ a = b := by
  simp [pure, Except.pure]

theorem exists_of_isOk {x : Except ε α} (h : x.isOk = true) : ∃ a, x = .ok a := by
  cases x with
  | error e => contradiction
  | ok a => exact ⟨a, rfl⟩

theorem toOption_eq_some_iff {x : Except ε α} {a : α} : x.toOption = some a ↔ x = .ok a := by
  cases x <;> simp [Except.toOption]

theorem mapError_eq_ok_iff {f : ε → ε'} {x : Except ε α} {a : α} :
    x.mapError f = .ok a ↔ x = .ok a := by
  cases x with
  | error e =>
      change Except.error (f e) = .ok a ↔ _
      simp
  | ok b =>
      change Except.ok b = .ok a ↔ _
      simp

private theorem bind_eq_error_iff {x : Except ε α} {f : α → Except ε β} {e : ε} :
    x >>= f = .error e ↔ x = .error e ∨ ∃ a, x = .ok a ∧ f a = .error e := by
  cases x <;> simp [bind, Except.bind]

theorem map_eq_error_iff {f : α → β} {x : Except ε α} {e : ε} :
    f <$> x = .error e ↔ x = .error e := by
  cases x <;> simp [Functor.map, Except.map]

theorem liftM_eq_ok_iff {x : Except Misuse α} {a : α} :
    (liftM x : Except Failure α) = .ok a ↔ x = .ok a :=
  mapError_eq_ok_iff

section List

variable {f : α → Except ε β} {xs : List α}

theorem mapM_eq_ok_iff {ys : List β} :
    xs.mapM f = .ok ys ↔ List.Forall₂ (fun x y => f x = .ok y) xs ys := by
  induction xs generalizing ys with
  | nil =>
      rw [List.mapM_nil, pure_eq_ok_iff, List.forall₂_nil_left_iff]
      exact eq_comm
  | cons x xs ih =>
      rw [List.mapM_cons, List.forall₂_cons_left_iff]
      simp only [bind_eq_ok_iff, pure_eq_ok_iff, ih]
      constructor
      · rintro ⟨y, hy, rest, hrest, rfl⟩
        exact ⟨y, rest, hy, hrest, rfl⟩
      · rintro ⟨y, rest, hy, hrest, rfl⟩
        exact ⟨y, hy, rest, hrest, rfl⟩

/-- The first member that fails makes the list fail. -/
theorem mapM_eq_error_iff {e : ε} : xs.mapM f = .error e ↔
    ∃ before x behind, xs = before ++ x :: behind ∧ (∀ y ∈ before, ∃ b, f y = .ok b) ∧
      f x = .error e := by
  induction xs with
  | nil => simp [pure, Except.pure]
  | cons x xs ih =>
      rw [List.mapM_cons, bind_eq_error_iff]
      simp only [bind_eq_error_iff, pure, Except.pure, reduceCtorEq, and_false, exists_false,
        or_false, ih]
      constructor
      · rintro (hx | ⟨b, hb, before, y, behind, rfl, hbefore, hy⟩)
        · exact ⟨[], x, xs, rfl, by simp, hx⟩
        · exact ⟨x :: before, y, behind, rfl, List.forall_mem_cons.mpr ⟨⟨b, hb⟩, hbefore⟩, hy⟩
      · rintro ⟨before, y, behind, hsplit, hbefore, hy⟩
        cases before with
        | nil =>
            obtain ⟨rfl, -⟩ := List.cons.inj hsplit
            exact .inl hy
        | cons w before =>
            obtain ⟨rfl, rfl⟩ := List.cons.inj hsplit
            obtain ⟨⟨b, hb⟩, hbefore⟩ := List.forall_mem_cons.mp hbefore
            exact .inr ⟨b, hb, before, y, behind, rfl, hbefore, hy⟩

end List

/-- The outcome is a value with the property `P`, or a failure with the property `F`. -/
def Lands (F : ε → Prop) (P : α → Prop) : Except ε α → Prop
  | .ok a => P a
  | .error e => F e

namespace Lands

variable {F G : ε → Prop} {P : α → Prop} {Q : β → Prop} {x : Except ε α}

theorem bind {f : α → Except ε β} (hx : Lands F P x) (hf : ∀ a, P a → Lands F Q (f a)) :
    Lands F Q (x >>= f) := by
  cases x with
  | error e => exact hx
  | ok a => exact hf a hx

theorem map {f : α → β} (hx : Lands F P x) (hf : ∀ a, P a → Q (f a)) : Lands F Q (f <$> x) := by
  cases x with
  | error e => exact hx
  | ok a => exact hf a hx

theorem mono (hx : Lands F P x) (hF : ∀ e, F e → G e) : Lands G P x := by
  cases x with
  | error e => exact hF e hx
  | ok a => exact hx

theorem and (hx : Lands F P x) (hy : Lands G (fun _ => True) x) :
    Lands (fun e => F e ∧ G e) P x := by
  cases x with
  | error e => exact ⟨hx, hy⟩
  | ok a => exact hx

theorem imp {P' : α → Prop} (hx : Lands F P x) (hP : ∀ a, P a → P' a) : Lands F P' x := by
  cases x with
  | error e => exact hx
  | ok a => exact hP a hx

end Lands

end TermRules
