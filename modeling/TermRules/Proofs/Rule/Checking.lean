import TermRules.Proofs.Success
import TermRules.Proofs.Rule.Bounds

/-!
What a check that succeeds has found out. A directive's success is said as a property of the value,
one lemma for each form of check; a rule without nested rules succeeds if the casts do, every
directive accepts what they leave, and the custom hooks succeed on it.
-/

namespace TermRules

namespace Directive

variable {v : Value} {path : String}

theorem checkAll_eq_ok_iff [Library] {ds : List Directive} :
    checkAll v path ds = .ok () ↔ ∀ d ∈ ds, d.check v path = .ok () := by
  induction ds with
  | nil => simp [checkAll]
  | cons d ds ih => rw [checkAll, bind_unit_eq_ok_iff, ih, List.forall_mem_cons]

theorem regexOf_eq_ok_iff [Library] {pattern : String} {r : Pattern.Regex} :
    regexOf pattern = .ok r ↔ Pattern.parse pattern = .ok r := by
  rw [regexOf]
  split <;> simp_all

theorem check_pattern_iff [Library] {pattern s : String} :
    (Directive.mk .pattern (.text pattern)).check (.text s) path = .ok () ↔
      ∃ r, Pattern.parse pattern = .ok r ∧ r.isFoundIn s = true := by
  simp only [check, checkPattern, bind_eq_ok_iff, regexOf_eq_ok_iff, demand_eq_ok_iff]

theorem check_address_iff [Library] {s : String} :
    (Directive.mk .address .null).check (.text s) path = .ok () ↔
      ∃ a, Library.address s = .ok a ∧ a.isComplete = true := by
  simp only [check, Custom.acceptAddress, Value.display, Scalar.display]
  cases Library.address s with
  | error fault => simp [Except.map]
  | ok a => cases h : a.isComplete <;> simp [h, Custom.demand, Except.map]

theorem check_hexadecimal_iff [Library] {s : String} :
    (Directive.mk .hexadecimal .null).check (.text s) path = .ok () ↔
      Text.isHexadecimal s = true :=
  demand_eq_ok_iff

theorem check_email_iff [Library] {s : String} :
    (Directive.mk .email .null).check (.text s) path = .ok () ↔ Text.isEmail s = true :=
  demand_eq_ok_iff

theorem check_precision_iff [Library] {d : Int} :
    (Directive.mk .precision (.int d)).check v path = .ok () ↔
      ∃ n, v.places = .ok n ∧ (n : Int) ≤ d := by
  have haccepts (n : Nat) : Relation.atMost.accepts (.int n) (.int d) = true ↔ (n : Int) ≤ d := by
    rw [Relation.accepts_iff .atMost (p := .at (n : Int)) (q := .at d) rfl rfl,
      Relation.Between, Point.at_le_at, Rat.intCast_le_intCast]
  have hholds (n : Nat) := Relation.atMost.holds_ofNumber (v := .int n) rfl (.int d)
  simp only [Value.ofNumber] at hholds
  simp only [check, checkPlaces, bind_eq_ok_iff, liftM_eq_ok_iff, demand_eq_ok_iff, hholds]
  refine exists_congr fun n => and_congr_right fun _ => ?_
  simp [haccepts]

/-- No item equals one in front of it. -/
def Distinct (items : List Value) : Prop :=
  items.Pairwise fun earlier later => later.same earlier = false

private theorem repeated?_eq_none_iff {seen items : List Value} :
    repeated? seen items = none ↔
      (∀ v ∈ items, ∀ u ∈ seen, v.same u = false) ∧ Distinct items := by
  induction items generalizing seen with
  | nil => simp [repeated?, Distinct]
  | cons v vs ih =>
      rw [repeated?, Distinct, List.pairwise_cons]
      split
      · simp_all
      · rename_i hseen
        replace hseen : ∀ u ∈ seen, v.same u = false := by simpa using hseen
        rw [ih, Distinct]
        simp only [List.mem_append, List.mem_singleton, List.forall_mem_cons]
        grind

theorem check_unique_iff [Library] {items : List Value} :
    (Directive.mk .unique .null).check (.list items) path = .ok () ↔ Distinct items := by
  have hnone : repeated? [] items = none ↔ _ := repeated?_eq_none_iff
  simp only [List.not_mem_nil, false_implies, implies_true, true_and] at hnone
  rw [← hnone]
  simp only [check, checkUnique, bind_eq_ok_iff, liftM_eq_ok_iff, Value.members, Except.ok.injEq,
    exists_eq_left']
  cases repeated? [] items with
  | none => simp [pure, Except.pure]
  | some member => simp [throw, throwThe, MonadExceptOf.throw]

end Directive

namespace Rule

private theorem mapItems_pass [Library] (hooks : Hooks) (path : String) (index : Nat)
    (vs : List Value) : mapItems (checkPart hooks none) path index vs = .ok vs := by
  induction vs generalizing index with
  | nil => rfl
  | cons v vs ih =>
      rw [mapItems, ih]
      rfl

theorem eq_of_check_null [Library] {hooks : Hooks} {r : Rule} {v w : Value} {path : String}
    (h : r.check hooks v path = .ok w) (hv : v.isNull = true) : w = v := by
  obtain ⟨kind, ds, refs, casts, customs, items, keys, values⟩ := r
  simp only [check, hv, if_true] at h
  split at h
  · contradiction
  · exact (Except.ok.inj h).symm

/-- What a level makes of the items or the entries of a value. -/
def checkParts [Library] (hooks : Hooks) (r : Rule) (v : Value) (path : String) :
    Except Failure Value :=
  match r.kind, v with
  | .array, .list vs => .list <$> mapItems (checkPart hooks r.items) path 0 vs
  | .object, .mapping es =>
      if r.keys.isNone && r.values.isNone then .ok v
      else .mapping <$>
        mapEntries (checkPart hooks r.keys) (checkPart hooks r.values) path [] es
  | _, _ => .ok v

/-- The stages of a check on a value that is not null. -/
theorem check_eq_stages [Library] {hooks : Hooks} {r : Rule} {v : Value} {path : String}
    (hnull : v.isNull = false) :
    r.check hooks v path = cast hooks r.kind r.casts v path >>= fun u =>
      if r.kind.admits u then
        Directive.checkAll u path r.directives >>= fun _ =>
          checkParts hooks r u path >>= runCustoms hooks path r.customs
      else .error (.rejected (.wrongKind r.kind) path u) := by
  obtain ⟨kind, ds, refs, casts, customs, items, keys, values⟩ := r
  simp only [check, hnull, Bool.false_eq_true, if_false]
  refine bind_congr fun u => ?_
  cases kind.admits u with
  | false => rfl
  | true =>
      simp only [Bool.not_true, Bool.false_eq_true, if_false, if_true]
      refine bind_congr fun _ => ?_
      unfold checkParts
      cases kind with
      | array => cases u <;> rfl
      | object =>
          cases u with
          | mapping es =>
              dsimp only
              split <;> rfl
          | scalar _ | list _ => rfl
      | any | boolean | string | number | struct => rfl

theorem check_eq_ok_iff_parts [Library] {hooks : Hooks} {r : Rule} {v w : Value} {path : String}
    (hnull : v.isNull = false) :
    r.check hooks v path = .ok w ↔
      ∃ u, cast hooks r.kind r.casts v path = .ok u ∧ r.kind.admits u = true ∧
        (∀ d ∈ r.directives, d.check u path = .ok ()) ∧
        ∃ x, checkParts hooks r u path = .ok x ∧ runCustoms hooks path r.customs x = .ok w := by
  rw [check_eq_stages hnull, bind_eq_ok_iff]
  refine exists_congr fun u => and_congr_right fun _ => ?_
  cases r.kind.admits u with
  | false => simp
  | true =>
      simp only [if_true, true_and]
      rw [bind_unit_eq_ok_iff, Directive.checkAll_eq_ok_iff, bind_eq_ok_iff]

/-- A rule without rules for parts of the value. -/
structure IsFlat (r : Rule) : Prop where
  items : r.items = none
  keys : r.keys = none
  values : r.values = none

theorem IsFlat.checkParts [Library] {r : Rule} (flat : r.IsFlat) (hooks : Hooks) (v : Value)
    (path : String) : r.checkParts hooks v path = .ok v := by
  unfold Rule.checkParts
  rw [flat.items, flat.keys, flat.values]
  split
  · rw [mapItems_pass]
    rfl
  · rfl
  · rfl

theorem check_eq_ok_iff [Library] {hooks : Hooks} {r : Rule} (flat : r.IsFlat) {v w : Value}
    {path : String} (hnull : v.isNull = false) :
    r.check hooks v path = .ok w ↔
      ∃ u, cast hooks r.kind r.casts v path = .ok u ∧ r.kind.admits u = true ∧
        (∀ d ∈ r.directives, d.check u path = .ok ()) ∧
        runCustoms hooks path r.customs u = .ok w := by
  simp only [check_eq_ok_iff_parts hnull, flat.checkParts, Except.ok.injEq, exists_eq_left']

end Rule

end TermRules
