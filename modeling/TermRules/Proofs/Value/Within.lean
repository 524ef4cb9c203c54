import Mathlib.Logic.Relation
import TermRules.Proofs.Number.Writable
import TermRules.Value.Basic

/-!
What is in a value: its items, the keys and the values of its entries, and what is in these. Of the
values that can be written out the numbers can.
-/

namespace TermRules

namespace Value

variable {u v : Value} {s : Scalar}

/-- An item of a list, or a key or a value of a mapping. -/
inductive IsPartOf : Value → Value → Prop where
  | item {u : Value} {items : List Value} (h : u ∈ items) : IsPartOf u (.list items)
  | key {e : Scalar × Value} {es : Entries} (h : e ∈ es) : IsPartOf (.scalar e.1) (.mapping es)
  | value {e : Scalar × Value} {es : Entries} (h : e ∈ es) : IsPartOf e.2 (.mapping es)

/-- `u` is the value `v` itself or is somewhere in it. -/
def IsWithin (u v : Value) : Prop :=
  Relation.ReflTransGen IsPartOf u v

private theorem isWithin_scalar : u.IsWithin (.scalar s) ↔ u = .scalar s := by
  constructor
  · intro h
    rcases Relation.ReflTransGen.cases_tail h with heq | ⟨w, -, hw⟩
    · exact heq.symm
    · cases hw
  · rintro rfl
    exact .refl

/-- All numbers in the value can be written out. -/
def IsWritable (v : Value) : Prop :=
  ∀ x : Number, (ofNumber x).IsWithin v → x.IsWritable

theorem IsWritable.of_isPartOf (h : v.IsWritable) (hu : u.IsPartOf v) : u.IsWritable :=
  fun x hx => h x (hx.tail hu)

private theorem isWritable_scalar :
    (scalar s).IsWritable ↔ ∀ x, ofNumber x = .scalar s → x.IsWritable := by
  simp only [IsWritable, isWithin_scalar]

theorem isWritable_text (t : String) : (text t).IsWritable :=
  isWritable_scalar.mpr fun x hx => by cases x <;> cases hx

theorem isWritable_bool (b : Bool) : (bool b).IsWritable :=
  isWritable_scalar.mpr fun x hx => by cases x <;> cases hx

theorem isWritable_ofNumber {x : Number} : (ofNumber x).IsWritable ↔ x.IsWritable := by
  cases x with
  | int n =>
      refine isWritable_scalar.trans ⟨fun h => h (.int n) rfl, fun h y hy => ?_⟩
      cases y <;> cases hy
      exact h
  | double d =>
      refine isWritable_scalar.trans ⟨fun h => h (.double d) rfl, fun h y hy => ?_⟩
      cases y <;> cases hy
      exact h

end Value

end TermRules
