import TermRules.Proofs.Success
import TermRules.Rule.Check

/-!
Paths as labels. The hooks and the directives of a rule do not read the path that they are given:
they only put it on what they reject. So a path can be exchanged for another one after the fact. The
parts of a value, whose paths are made from the path of the value, are not looked at here.
-/

namespace TermRules

variable {α β : Type}

def Failure.IsRejection : Failure → Prop
  | .rejected _ _ _ => True
  | _ => False

/-- The failure with the path in place of its own, if it has one. -/
def Failure.movedTo (path : String) : Failure → Failure
  | .rejected reason _ v => .rejected reason path v
  | f => f

theorem Failure.movedTo_movedTo (p q : String) (f : Failure) :
    (f.movedTo p).movedTo q = f.movedTo q := by
  cases f <;> rfl

private theorem Failure.movedTo_of_not_isRejection {f : Failure} (h : ¬ f.IsRejection)
    (path : String) : f.movedTo path = f := by
  cases f with
  | rejected _ _ _ => exact absurd trivial h
  | _ => rfl

/-- The path under which a step is taken is where it rejects, and has no other effect. -/
def OnlyLabels (step : String → Except Failure α) : Prop :=
  ∀ p q, step q = (step p).mapError (Failure.movedTo q)

namespace OnlyLabels

variable {x : Except Failure α} {step : String → Except Failure α} {p q : String}

private theorem of_never_rejects (h : ∀ f, x = .error f → ¬ f.IsRejection) :
    OnlyLabels fun _ => x := by
  intro p q
  cases x with
  | ok a => rfl
  | error f => exact congrArg Except.error (Failure.movedTo_of_not_isRejection (h f rfl) q).symm

theorem ok (a : α) : OnlyLabels fun _ => .ok a :=
  of_never_rejects fun _ h => nomatch h

private theorem misuse (cause : Misuse) :
    OnlyLabels fun _ => (.error (.misuse cause) : Except Failure α) :=
  of_never_rejects fun _ h => by cases h; exact id

private theorem lifted (x : Except Misuse α) :
    OnlyLabels fun _ => (liftM x : Except Failure α) := by
  cases x with
  | ok a => exact ok a
  | error cause => exact misuse cause

theorem rejected (reason : Reason) (v : Value) :
    OnlyLabels fun path => (.error (.rejected reason path v) : Except Failure α) :=
  fun _ _ => rfl

theorem bind {next : α → String → Except Failure β} (hstep : OnlyLabels step)
    (hnext : ∀ a, OnlyLabels (next a)) :
    OnlyLabels fun path => step path >>= fun a => next a path := by
  intro p q
  dsimp only
  rw [hstep p q]
  cases step p with
  | ok a => exact hnext a p q
  | error f => rfl

theorem eq_ok_iff (h : OnlyLabels step) {a : α} : step p = .ok a ↔ step q = .ok a := by
  rw [h p q, mapError_eq_ok_iff]

theorem eq_error (h : OnlyLabels step) {f : Failure} (hp : step p = .error f) :
    step q = .error (f.movedTo q) := by
  rw [h p q, hp]
  rfl

end OnlyLabels

section Hooks

variable {hooks : Hooks}

private theorem onlyLabels_customDemand (accepted : Bool) (reason : Reason) (v : Value) :
    OnlyLabels (Custom.demand accepted reason v) := by
  cases accepted with
  | true => exact .ok v
  | false => exact .rejected reason v

private theorem onlyLabels_acceptAddress [Library] (v : Value) :
    OnlyLabels (Custom.acceptAddress v) := by
  unfold Custom.acceptAddress
  cases Library.address v.display with
  | error fault => exact .misuse (.address fault)
  | ok a => exact onlyLabels_customDemand _ _ v

private theorem onlyLabels_acceptInteger (v : Value) : OnlyLabels (Custom.acceptInteger v) := by
  unfold Custom.acceptInteger
  split
  · split
    · exact .ok _
    · exact .rejected _ _
  · exact .ok v

private theorem onlyLabels_acceptTimestamp (v : Value) : OnlyLabels (Custom.acceptTimestamp v) := by
  unfold Custom.acceptTimestamp
  split
  · exact .misuse .incomparable
  · exact onlyLabels_customDemand _ _ v

private theorem onlyLabels_custom [Library] (c : Custom) (v : Value) : OnlyLabels (c.apply v) := by
  cases c with
  | address => exact onlyLabels_acceptAddress v
  | hexadecimal | email => exact onlyLabels_customDemand _ _ v
  | integer => exact onlyLabels_acceptInteger v
  | timestamp => exact onlyLabels_acceptTimestamp v

private theorem onlyLabels_toNumber (v : Value) : OnlyLabels (Cast.toNumber v) := by
  unfold Cast.toNumber
  dsimp only
  split
  · exact .ok _
  · exact .ok _
  · split
    · exact .ok _
    · exact .rejected _ _
  · exact .rejected _ _

private theorem onlyLabels_cast (c : Cast) (v : Value) : OnlyLabels (c.apply v) := by
  cases c with
  | string | boolean | hexadecimal => exact .ok _
  | number => exact onlyLabels_toNumber v

private theorem onlyLabels_lookup (table : List (String × α)) (name : String) :
    OnlyLabels fun _ => Hooks.lookup table name := by
  unfold Hooks.lookup
  split
  · exact .ok _
  · exact .of_never_rejects fun _ h => by cases h; exact id

namespace Rule

private theorem onlyLabels_runCasts (names : List String) (v : Value) :
    OnlyLabels fun path => runCasts hooks path names v := by
  induction names generalizing v with
  | nil => exact .ok v
  | cons name names ih =>
      exact (onlyLabels_lookup hooks.casts name).bind fun c => (onlyLabels_cast c v).bind ih

theorem onlyLabels_runCustoms [Library] (names : List String) (v : Value) :
    OnlyLabels fun path => runCustoms hooks path names v := by
  induction names generalizing v with
  | nil => exact .ok v
  | cons name names ih =>
      exact (onlyLabels_lookup hooks.customs name).bind fun c => (onlyLabels_custom c v).bind ih

theorem onlyLabels_castAll (kind : Kind) (casts : List String) (v : Value) :
    OnlyLabels (cast hooks kind casts v) := by
  unfold cast
  split
  · exact .ok v
  · split
    · exact onlyLabels_runCasts casts _
    · exact .rejected _ _

end Rule

end Hooks

namespace Directive

private theorem onlyLabels_demand (accepted : Bool) (reason : Reason) (v : Value) :
    OnlyLabels fun path => demand accepted reason path v := by
  cases accepted with
  | true => exact .ok ()
  | false => exact .rejected reason v

private theorem onlyLabels_checkCount (r : Relation) (limit v : Value) :
    OnlyLabels (checkCount r limit v) := by
  unfold checkCount
  split
  · exact .misuse .unsized
  · exact (OnlyLabels.lifted _).bind fun accepted => onlyLabels_demand accepted _ v

private theorem onlyLabels_checkBound (r : Relation) (limit v : Value) :
    OnlyLabels (checkBound r limit v) :=
  (OnlyLabels.lifted _).bind fun accepted => onlyLabels_demand accepted _ v

private theorem onlyLabels_checkWhole (v : Value) : OnlyLabels (checkWhole v) := by
  unfold checkWhole
  split
  · exact onlyLabels_demand _ _ _
  · exact .ok ()

private theorem onlyLabels_checkPattern [Library] (limit v : Value) :
    OnlyLabels (checkPattern limit v) := by
  unfold checkPattern
  split
  · rename_i pattern
    refine OnlyLabels.bind (.of_never_rejects fun f hf => ?_) fun regex => ?_
    · unfold regexOf at hf
      split at hf <;> cases hf <;> exact id
    · split
      · exact onlyLabels_demand _ _ _
      · exact .misuse .notText
  · exact .misuse .notText

private theorem onlyLabels_checkText (recognised : String → Bool) (reason : Reason) (v : Value) :
    OnlyLabels (checkText recognised reason v) := by
  unfold checkText
  split
  · exact onlyLabels_demand _ reason _
  · exact .misuse .notText

theorem onlyLabels_check [Library] (d : Directive) (v : Value) : OnlyLabels (d.check v) := by
  obtain ⟨name, limit⟩ := d
  cases name with
  | required | timestamp => exact .ok ()
  | exactLength | minLength | maxLength | exactSize | minSize | maxSize =>
      exact onlyLabels_checkCount _ limit v
  | exact | min | max | greater | less => exact onlyLabels_checkBound _ limit v
  | precision =>
      exact (OnlyLabels.lifted v.places).bind fun n => (OnlyLabels.lifted _).bind fun accepted =>
        onlyLabels_demand accepted _ v
  | integer => exact onlyLabels_checkWhole v
  | pattern => exact onlyLabels_checkPattern limit v
  | address =>
      intro p q
      change (Custom.acceptAddress v q).map _ = ((Custom.acceptAddress v p).map _).mapError _
      rw [onlyLabels_acceptAddress v p q]
      cases Custom.acceptAddress v p <;> rfl
  | hexadecimal | email => exact onlyLabels_checkText _ _ v
  | unique =>
      refine (OnlyLabels.lifted v.members).bind fun members => ?_
      split
      · exact .ok ()
      · exact .rejected _ _

theorem onlyLabels_checkAll [Library] (ds : List Directive) (v : Value) :
    OnlyLabels fun path => checkAll v path ds := by
  induction ds with
  | nil => exact .ok ()
  | cons d ds ih => exact (onlyLabels_check d v).bind fun _ => ih

end Directive

end TermRules
