import TermRules.Program
import TermRules.Proofs.Rule.Parts

/-!
Where rejections stand. Under any path that is not empty a check comes to the same, up to the path
in front of the places of its rejections; and the place of a rejection leads from the checked value,
over items and entries, to one that is rejected by the rule for it. The empty path, under which the
first key stands without a dot, is left out.
-/

namespace TermRules

namespace Position

/-- From a value to an item or an entry of it. -/
inductive Step where
  | item (index : Nat)
  | entry (key : Scalar)

def Step.text : Step → String
  | .item index => "[" ++ toString index ++ "]"
  | .entry key => "." ++ key.display

/-- The steps as they stand in a path, behind that of the value that they start from. -/
def trail : List Step → String
  | [] => ""
  | step :: steps => step.text ++ trail steps

private theorem item_eq (path : String) (index : Nat) :
    item path index = path ++ (Step.item index).text := by
  simp only [item, Step.text, String.append_assoc]

private theorem entry_eq {path : String} (hpath : path ≠ "") (key : Scalar) :
    entry path key = path ++ (Step.entry key).text := by
  simp only [entry, Step.text, String.isEmpty_iff, hpath, if_false, String.append_assoc]

private theorem append_ne_empty {path : String} (hpath : path ≠ "") (suffix : String) :
    path ++ suffix ≠ "" := by
  simp [hpath]

end Position

open Position (Step trail)

/-- The failure with the path in front of its place, if it has one. -/
def Failure.under (path : String) : Failure → Failure
  | .rejected reason place v => .rejected reason (path ++ place) v
  | f => f

private theorem Failure.under_under (p q : String) (f : Failure) :
    (f.under q).under p = f.under (p ++ q) := by
  cases f <;> simp [under, String.append_assoc]

private theorem Failure.under_movedTo (path : String) (f : Failure) :
    (f.movedTo "").under path = f.movedTo path := by
  cases f <;> simp [under, movedTo]

private theorem Failure.under_of_not_isRejection {f : Failure} (h : ¬ f.IsRejection)
    (path : String) : f.under path = f := by
  cases f with
  | rejected _ _ _ => exact absurd trivial h
  | _ => rfl

/-- Under every path but the empty one the step comes to the same, with the path in front of the
places of its failures; and these are among `F`. -/
def Located {α : Type} (F : Failure → Prop) (step : String → Except Failure α) : Prop :=
  ∃ outcome : Except Failure α, Lands F (fun _ => True) outcome ∧
    ∀ path, path ≠ "" → step path = outcome.mapError (Failure.under path)

namespace Located

variable {α β : Type} {F G : Failure → Prop} {step : String → Except Failure α}

private theorem ok (a : α) : Located F fun _ => .ok a :=
  ⟨.ok a, trivial, fun _ _ => rfl⟩

private theorem bind {next : α → String → Except Failure β} (hstep : Located F step)
    (hnext : ∀ a, Located F (next a)) :
    Located F fun path => step path >>= fun a => next a path := by
  obtain ⟨outcome, hlands, hstep⟩ := hstep
  cases outcome with
  | error f =>
      refine ⟨.error f, hlands, fun path hpath => ?_⟩
      dsimp only
      rw [hstep path hpath]
      rfl
  | ok a =>
      obtain ⟨outcome, hlands, hnext⟩ := hnext a
      refine ⟨outcome, hlands, fun path hpath => ?_⟩
      dsimp only
      rw [hstep path hpath]
      exact hnext path hpath

private theorem map (f : α → β) (hstep : Located F step) :
    Located F fun path => f <$> step path := by
  have h := hstep.bind fun a => ok (F := F) (f a)
  have heq : (fun path => f <$> step path) = fun path => step path >>= fun a => .ok (f a) := by
    funext path
    cases step path <;> rfl
  rwa [heq]

/-- A step that is taken under a longer path has its failures below the rest of that path. -/
theorem below {suffix : String} (hstep : Located F step) (hF : ∀ f, F f → G (f.under suffix))
    {place : String → String} (hplace : ∀ path, path ≠ "" → place path = path ++ suffix) :
    Located G fun path => step (place path) := by
  obtain ⟨outcome, hlands, hstep⟩ := hstep
  refine ⟨outcome.mapError (Failure.under suffix), ?_, fun path hpath => ?_⟩
  · cases outcome with
    | ok a => trivial
    | error f => exact hF f hlands
  · dsimp only
    rw [hplace path hpath, hstep _ (Position.append_ne_empty hpath suffix)]
    cases outcome with
    | ok a => rfl
    | error f => exact congrArg Except.error (Failure.under_under path suffix f).symm

end Located

namespace Rule

variable {hooks : Hooks} {r s t : Rule} {v w x : Value} {steps : List Step}

/-- The steps lead from `v` under the rule `r` to `x`, and in the same way to the rule `t`
for it. -/
inductive Leads : Rule → Value → List Step → Rule → Value → Prop where
  | here {r : Rule} {v : Value} : Leads r v [] r v
  | item {r s t : Rule} {items : List Value} {index : Nat} {w x : Value} {steps : List Step}
      (kind : r.kind = .array) (rule : r.items = some s) (stands : items[index]? = some w)
      (rest : Leads s w steps t x) : Leads r (.list items) (.item index :: steps) t x
  | key {r s t : Rule} {es : Entries} {k : Scalar} {w x : Value} {steps : List Step}
      (kind : r.kind = .object) (rule : r.keys = some s) (stands : (k, w) ∈ es)
      (rest : Leads s (.scalar k) steps t x) : Leads r (.mapping es) (.entry k :: steps) t x
  | value {r s t : Rule} {es : Entries} {k : Scalar} {w x : Value} {steps : List Step}
      (kind : r.kind = .object) (rule : r.values = some s) (stands : (k, w) ∈ es)
      (rest : Leads s w steps t x) : Leads r (.mapping es) (.entry k :: steps) t x

/-- The rule rejects `v` itself and nothing in it: under whatever path `v` stands, the rejection
is there. -/
def Rejects [Library] (hooks : Hooks) (r : Rule) (v : Value) (reason : Reason) (offending : Value) :
    Prop :=
  ∀ path, r.check hooks v path = .error (.rejected reason path offending)

/-- What a check of `v` can fail by, with places as seen from `v`: a rejection stands where some
part of `v` is rejected by the rule for it. -/
inductive FailsAt [Library] (hooks : Hooks) (r : Rule) (v : Value) : Failure → Prop where
  | placeless {f : Failure} (h : ¬ f.IsRejection) : FailsAt hooks r v f
  | rejection {steps : List Step} {t : Rule} {x offending : Value} {reason : Reason}
      (leads : r.Leads v steps t x) (rejects : t.Rejects hooks x reason offending) :
      FailsAt hooks r v (.rejected reason (trail steps) offending)

/-- What leads to a part of a part leads to it by one step more. -/
theorem FailsAt.under_step [Library] {step : Step}
    (hleads : ∀ steps t x, s.Leads w steps t x → r.Leads v (step :: steps) t x) {f : Failure}
    (h : s.FailsAt hooks w f) : r.FailsAt hooks v (f.under step.text) := by
  cases h with
  | placeless h =>
      rw [Failure.under_of_not_isRejection h]
      exact .placeless h
  | rejection leads rejects => exact .rejection (hleads _ _ _ leads) rejects

/-- A check that only labels with its path rejects the value itself. -/
theorem located_of_onlyLabels [Library] (h : OnlyLabels (r.check hooks v)) :
    Located (r.FailsAt hooks v) (r.check hooks v) := by
  cases houtcome : r.check hooks v "" with
  | ok w => exact ⟨.ok w, trivial, fun path _ => h.eq_ok_iff.mp houtcome⟩
  | error f =>
      have hplace : f.movedTo "" = f := Except.error.inj ((h.eq_error houtcome).symm.trans houtcome)
      have hunder (path : String) : f.under path = f.movedTo path := by
        rw [← f.under_movedTo path, hplace]
      refine ⟨.error f, ?_, fun path _ => ?_⟩
      · cases f with
        | rejected reason place offending =>
            obtain rfl : "" = place := (Failure.rejected.inj hplace).2.1
            exact .rejection .here fun path => h.eq_error houtcome
        | _ => exact .placeless id
      · rw [h.eq_error houtcome, ← hunder]
        rfl

private theorem onlyLabels_check_null [Library] (r : Rule) (hnull : v.isNull = true) :
    OnlyLabels (r.check hooks v) := by
  obtain ⟨kind, ds, refs, casts, customs, items, keys, values⟩ := r
  intro p q
  simp only [check, hnull, if_true]
  split <;> rfl

section Parts

private theorem located_checkPart [Library] {F : Failure → Prop} {part : Option Rule} (step : Step)
    {place : String → String} (hplace : ∀ path, path ≠ "" → place path = path ++ step.text)
    (hpart : ∀ s, part = some s → Located (s.FailsAt hooks w) (s.check hooks w) ∧
      ∀ f, s.FailsAt hooks w f → F (f.under step.text)) :
    Located F fun path => checkPart hooks part w (place path) := by
  cases part with
  | none => exact .ok w
  | some s =>
      obtain ⟨hlocated, hF⟩ := hpart s rfl
      exact hlocated.below hF hplace

private theorem located_mapItems {F : Failure → Prop} {step : Value → String → Except Failure Value}
    {index : Nat} {vs : List Value} (hstep : ∀ i w, vs[i]? = some w →
      Located F fun path => step w (Position.item path (index + i))) :
    Located F fun path => mapItems step path index vs := by
  induction vs generalizing index with
  | nil => exact .ok []
  | cons v vs ih =>
      refine (hstep 0 v rfl).bind fun w => (Located.map (w :: ·) (ih fun i u hu => ?_))
      have h := hstep (i + 1) u hu
      rwa [← Nat.add_assoc, Nat.add_right_comm] at h

private theorem located_mapEntries {F : Failure → Prop}
    {onKey onValue : Value → String → Except Failure Value} {done es : Entries}
    (hkey : ∀ k w, (k, w) ∈ es → Located F fun path => onKey (.scalar k) (Position.entry path k))
    (hvalue : ∀ k w, (k, w) ∈ es → Located F fun path => onValue w (Position.entry path k)) :
    Located F fun path => mapEntries onKey onValue path done es := by
  induction es generalizing done with
  | nil => exact .ok done
  | cons e es ih =>
      refine (hkey e.1 e.2 List.mem_cons_self).bind fun key =>
        (hvalue e.1 e.2 List.mem_cons_self).bind fun w => ih ?_ ?_
      · exact fun k w h => hkey k w (List.mem_cons_of_mem e h)
      · exact fun k w h => hvalue k w (List.mem_cons_of_mem e h)

/-- What a check finds in the parts of a value it finds where they stand. -/
theorem located_checkParts [Library]
    (hparts : ∀ s : Rule, s.IsPartOf r → ∀ w, Located (s.FailsAt hooks w) (s.check hooks w))
    (v : Value) : Located (r.FailsAt hooks v) (r.checkParts hooks v) := by
  unfold checkParts
  split
  · rename_i vs hkind
    refine Located.map Value.list (located_mapItems fun i w hw => ?_)
    refine located_checkPart (.item i) (fun path _ => ?_) fun s hs => ⟨hparts s (.inl hs) w, ?_⟩
    · rw [Nat.zero_add, Position.item_eq]
    · exact fun f => FailsAt.under_step fun steps t x => .item hkind hs hw
  · rename_i es hkind
    split
    · exact .ok _
    · refine Located.map Value.mapping (located_mapEntries (fun k w hmem => ?_) fun k w hmem => ?_)
      · refine located_checkPart (.entry k) (fun path hpath => Position.entry_eq hpath k)
          fun s hs => ⟨hparts s (.inr (.inl hs)) _, ?_⟩
        exact fun f => FailsAt.under_step fun steps t x => .key hkind hs hmem
      · refine located_checkPart (.entry k) (fun path hpath => Position.entry_eq hpath k)
          fun s hs => ⟨hparts s (.inr (.inr hs)) w, ?_⟩
        exact fun f => FailsAt.under_step fun steps t x => .value hkind hs hmem
  · exact .ok _

end Parts

section Levels

variable {path : String} {u : Value}

/-- What a level goes on with: the value after the casts, if it is of the kind and meets
the directives. -/
def entering [Library] (hooks : Hooks) (r : Rule) (v : Value) (path : String) :
    Except Failure Value :=
  cast hooks r.kind r.casts v path >>= fun u =>
    if r.kind.admits u then Directive.checkAll u path r.directives >>= fun _ => .ok u
    else .error (.rejected (.wrongKind r.kind) path u)

private theorem check_eq_entering [Library] (hnull : v.isNull = false) :
    r.check hooks v path = r.entering hooks v path >>= fun u =>
      r.checkParts hooks u path >>= runCustoms hooks path r.customs := by
  rw [check_eq_stages hnull, entering]
  cases cast hooks r.kind r.casts v path with
  | error f => rfl
  | ok u =>
      change (if r.kind.admits u then _ else _) = (if r.kind.admits u then _ else _) >>= _
      split
      · cases Directive.checkAll u path r.directives <;> rfl
      · rfl

private theorem onlyLabels_entering [Library] (r : Rule) (v : Value) :
    OnlyLabels (r.entering hooks v) := by
  refine (onlyLabels_castAll r.kind r.casts v).bind fun u => ?_
  cases r.kind.admits u with
  | true => exact (Directive.onlyLabels_checkAll r.directives u).bind fun _ => .ok u
  | false => exact .rejected _ u

private theorem eq_or_scalar_of_entering [Library] (h : r.entering hooks v path = .ok u) :
    u = v ∨ ∃ t, u = .scalar t := by
  obtain ⟨w, hcast, h⟩ := bind_eq_ok_iff.mp h
  split at h
  · obtain ⟨_, -, rfl⟩ : ∃ a, Directive.checkAll w path r.directives = .ok a ∧ w = u := by
      simpa only [bind_eq_ok_iff, Except.ok.injEq] using h
    exact eq_or_scalar_of_cast hcast
  · contradiction

/-- Behind the value itself come its parts, and then the custom hooks. -/
theorem located_of_entered [Library] (hu : u = v ∨ ∃ t, u = .scalar t)
    (hparts : Located (r.FailsAt hooks u) (r.checkParts hooks u))
    (hcheck : ∀ path, r.check hooks v path =
      r.checkParts hooks u path >>= runCustoms hooks path r.customs) :
    Located (r.FailsAt hooks v) (r.check hooks v) := by
  obtain ⟨outcome, hlands, houtcome⟩ := hparts
  have hpoint : "." ≠ "" := by decide
  cases outcome with
  | ok x =>
      have hx (path : String) : r.checkParts hooks u path = .ok x :=
        (ignoresPath_checkParts hooks r u x "." path).mp (houtcome "." hpoint)
      replace hcheck (path : String) :
        r.check hooks v path = runCustoms hooks path r.customs x := by
        rw [hcheck, hx]
        rfl
      exact located_of_onlyLabels fun p q => by
        rw [hcheck, hcheck]
        exact onlyLabels_runCustoms r.customs x p q
  | error g =>
      rcases hu with rfl | ⟨t, rfl⟩
      · refine ⟨.error g, hlands, fun path hpath => ?_⟩
        rw [hcheck, houtcome path hpath]
        rfl
      -- A scalar has no parts that could fail.
      · have hfails := houtcome "." hpoint
        rw [checkParts_scalar] at hfails
        contradiction

/-- Every rejection stands where a part of the value is rejected. -/
theorem located_check [Library] (hooks : Hooks) (r : Rule) (v : Value) :
    Located (r.FailsAt hooks v) (r.check hooks v) := by
  induction r using induct generalizing v with
  | step r ih =>
      cases hnull : v.isNull with
      | true => exact located_of_onlyLabels (onlyLabels_check_null r hnull)
      | false =>
          have hentering : OnlyLabels (r.entering hooks v) := onlyLabels_entering r v
          cases hu : r.entering hooks v "" with
          | error f =>
              refine located_of_onlyLabels fun p q => ?_
              rw [check_eq_entering hnull, check_eq_entering hnull, hentering.eq_error hu,
                hentering.eq_error hu]
              exact congrArg Except.error (f.movedTo_movedTo p q).symm
          | ok u =>
              refine located_of_entered (eq_or_scalar_of_entering hu) (located_checkParts ih u)
                fun path => ?_
              rw [check_eq_entering hnull, hentering.eq_ok_iff.mp hu]
              rfl

end Levels

/-- Under two paths that are not empty a check gives the same value, fails in the same way without a
place, or rejects the same value for the same reason, at places that differ in the path in front
only. What is behind the path leads to a part of the value that is rejected itself by the rule that
it leads to. -/
theorem check_alike_under_paths [Library] (hooks : Hooks) (r : Rule) (v : Value) {p q : String}
    (hp : p ≠ "") (hq : q ≠ "") :
    (∃ w, r.check hooks v p = .ok w ∧ r.check hooks v q = .ok w) ∨
    (∃ f : Failure, ¬ f.IsRejection ∧ r.check hooks v p = .error f ∧ r.check hooks v q = .error f) ∨
    ∃ reason offending steps t x,
      r.check hooks v p = .error (.rejected reason (p ++ trail steps) offending) ∧
      r.check hooks v q = .error (.rejected reason (q ++ trail steps) offending) ∧
      r.Leads v steps t x ∧ t.Rejects hooks x reason offending := by
  obtain ⟨outcome, hlands, houtcome⟩ := located_check hooks r v
  rw [houtcome p hp, houtcome q hq]
  cases outcome with
  | ok w => exact .inl ⟨w, rfl, rfl⟩
  | error f =>
      cases hlands with
      | placeless hf =>
          have hunder (path : String) : f.under path = f := Failure.under_of_not_isRejection hf path
          exact .inr (.inl ⟨f, hf, congrArg _ (hunder p), congrArg _ (hunder q)⟩)
      | rejection leads rejects => exact .inr (.inr ⟨_, _, _, _, _, rfl, rfl, leads, rejects⟩)

/-- Numbers by subject. -/
def marksBySubject : Rule :=
  { kind := .object, values := some { kind := .array, items := some { kind := .number } } }

def misspelledMark : Value :=
  .fields [("maths", .list [.int 5, .text "six"])]

section Program

open Program

theorem check_alike_under_form_and_sheet :
    marksBySubject.check .standard misspelledMark "form" =
      .error (.rejected (.wrongKind .number) "form.maths[1]" (.text "six")) ∧
    ∃ reason offending steps t x,
      marksBySubject.check .standard misspelledMark "form" =
        .error (.rejected reason ("form" ++ trail steps) offending) ∧
      marksBySubject.check .standard misspelledMark "sheet" =
        .error (.rejected reason ("sheet" ++ trail steps) offending) ∧
      marksBySubject.Leads misspelledMark steps t x ∧ t.Rejects .standard x reason offending := by
  have hform : marksBySubject.check .standard misspelledMark "form" =
      .error (.rejected (.wrongKind .number) "form.maths[1]" (.text "six")) := rfl
  refine ⟨hform, ?_⟩
  rcases check_alike_under_paths .standard marksBySubject misspelledMark (p := "form")
    (q := "sheet") (by decide) (by decide) with ⟨w, hw, -⟩ | ⟨f, hf, herror, -⟩ | h
  · cases hform.symm.trans hw
  · obtain rfl := Except.error.inj (hform.symm.trans herror)
    exact absurd trivial hf
  · exact h

end Program

end Rule

end TermRules
