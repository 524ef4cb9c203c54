import TermRules.Proofs.Record.Form
import TermRules.Proofs.Rule.Parts
import TermRules.Rule.Form

/-!
Rules from their form, and what follows from it for both kinds of trees: nothing is lost in a form,
and different records, or different rules, have different forms. Fields are read from the last to
the first, and each one is set by its own part of the form.
-/

namespace TermRules

private theorem Value.isNull_iff {v : Value} : v.isNull = true ↔ v = .null := by
  constructor
  · intro h
    match v, h with
    | .null, _ => rfl
  · rintro rfl
    rfl

private theorem Directive.read_form (d : Directive) : read d.form = .ok d := by
  obtain ⟨name, v⟩ := d
  have hread (rest : List (String × Value)) :
      read (.fields (("name", .text name.name) :: rest)) =
        .ok ⟨name, ((Value.fields rest).get? "value").getD .null⟩ := by
    simp [read, DirectiveName.ofName?_name, Value.fields, Value.get?, Entries.get?, Value.text?,
      bind, Except.bind, pure, Except.pure]
  rw [form, hread]
  split
  · rename_i hnull
    obtain rfl : v = .null := Value.isNull_iff.mp hnull
    rfl
  · rfl

namespace Rule

open Entries (named)

private theorem referencesOf_fields (references : List (String × Value)) :
    referencesOf (.fields references) = references := by
  induction references with
  | nil => rfl
  | cons e es ih => exact congrArg (e :: ·) ih

private theorem textsOf_texts (ss : List String) : textsOf (.texts ss) = ss := by
  induction ss with
  | nil => rfl
  | cons s ss ih => exact congrArg (s :: ·) ih

private theorem form_eq_named (r : Rule) : ∃ fields, r.form = .mapping (named fields) := by
  obtain ⟨kind, ds, references, casts, customs, items, keys, values⟩ := r
  exact ⟨_, rfl⟩

private theorem readPart_form {s : Rule} (h : read s.form = .ok s) :
    readPart s.form = .ok (some s) := by
  obtain ⟨fields, hform⟩ := form_eq_named s
  rw [hform, read] at h
  obtain ⟨parts, hparts, hs⟩ := bind_eq_ok_iff.mp h
  rw [hform, readPart, hparts]
  change parts.toRule >>= _ = _
  rw [hs]
  rfl

section Fields

variable {rest : Entries} {p : Parts}

private theorem readFields_part (name : String) {part : Option Rule}
    (set : Parts → Option Rule → Parts) (hname : ∀ v, readFields ((.text name, v) :: rest) =
      readFields rest >>= fun parts => readPart v >>= fun part => .ok (set parts part))
    (hrest : readFields rest = .ok p) (hnone : set p none = p)
    (hread : ∀ s, part = some s → read s.form = .ok s) :
    readFields (named (partForm name part) ++ rest) = .ok (set p part) := by
  cases part with
  | none => exact hrest.trans (congrArg Except.ok hnone.symm)
  | some s =>
      refine (hname s.form).trans ?_
      rw [hrest, readPart_form (hread s rfl)]
      rfl

private theorem readFields_texts (name : String) (ss : List String)
    (set : Parts → List String → Parts) (hname : ∀ v, readFields ((.text name, v) :: rest) =
      readFields rest >>= fun parts => .ok (set parts (textsOf v)))
    (hrest : readFields rest = .ok p) (hnone : set p [] = p) :
    readFields (named (textsField name ss) ++ rest) = .ok (set p ss) := by
  cases ss with
  | nil => exact hrest.trans (congrArg Except.ok hnone.symm)
  | cons s ss =>
      refine (hname (.texts (s :: ss))).trans ?_
      rw [hrest, textsOf_texts]
      rfl

private theorem readFields_references (references : List (String × Value))
    (hrest : readFields rest = .ok p) (hnone : p.references = []) :
    readFields (named (if references.isEmpty then []
      else [("references", .fields references)]) ++ rest) = .ok { p with references } := by
  cases references with
  | nil =>
      refine hrest.trans (congrArg Except.ok ?_)
      rw [← hnone]
  | cons e es =>
      have hname (v : Value) : readFields ((.text "references", v) :: rest) =
          readFields rest >>= fun parts => .ok { parts with references := referencesOf v } := rfl
      refine (hname (.fields (e :: es))).trans ?_
      rw [hrest, referencesOf_fields]
      rfl

private theorem readFields_directives (ds : List Directive) (hrest : readFields rest = .ok p) :
    readFields ((.text "directives", .list (ds.map Directive.form)) :: rest) =
      .ok { p with directives := ds } := by
  have hread : (ds.map Directive.form).mapM Directive.read = .ok ds :=
    mapM_eq_ok_iff.mpr
      (List.forall₂_map_left_iff.mpr (List.forall₂_same.mpr fun d _ => d.read_form))
  rw [readFields, hrest]
  change ((ds.map Directive.form).mapM Directive.read >>= _) = _
  rw [hread]
  rfl

private theorem readFields_kind (kind : Kind) (hrest : readFields rest = .ok p) :
    readFields ((.text "kind", .text kind.name) :: rest) = .ok { p with kind := some kind } := by
  have hkind : (Value.text kind.name).text?.bind Kind.ofName? = some kind := kind.ofName?_name
  rw [readFields, hrest]
  simp only [hkind]
  rfl

end Fields

private theorem read_form (r : Rule) : read r.form = .ok r := by
  induction r using induct with
  | step r ih =>
      obtain ⟨kind, ds, references, casts, customs, items, keys, values⟩ := r
      have hvalues :=
        readFields_part "values" (fun p part => { p with values := part }) (fun _ => rfl)
        (rfl : readFields [] = .ok {}) rfl fun s (hs : values = some s) => ih s (.inr (.inr hs))
      have hkeys :=
        readFields_part "keys" (fun p part => { p with keys := part }) (fun _ => rfl) hvalues rfl
        fun s (hs : keys = some s) => ih s (.inr (.inl hs))
      have hitems :=
        readFields_part "items" (fun p part => { p with items := part }) (fun _ => rfl) hkeys rfl
        fun s (hs : items = some s) => ih s (.inl hs)
      have hcustoms :=
        readFields_texts "custom" customs (fun p ss => { p with customs := ss }) (fun _ => rfl)
        hitems rfl
      have hcasts :=
        readFields_texts "cast" casts (fun p ss => { p with casts := ss }) (fun _ => rfl) hcustoms
        rfl
      have hreferences := readFields_references references hcasts rfl
      have hds := readFields_directives ds hreferences
      have hkind := readFields_kind kind hds
      have hform : form ⟨kind, ds, references, casts, customs, items, keys, values⟩ = .mapping
          ((.text "kind", .text kind.name) :: (.text "directives", .list (ds.map Directive.form)) ::
            (named (if references.isEmpty then [] else [("references", .fields references)]) ++
              (named (textsField "cast" casts) ++ (named (textsField "custom" customs) ++
                (named (partForm "items" items) ++ (named (partForm "keys" keys) ++
                  (named (partForm "values" values) ++ []))))))) := by
        simp only [form, Value.fields, named, List.map_append, List.map_cons, List.append_assoc,
          List.cons_append, List.nil_append, List.append_nil]
      rw [hform, read, hkind]
      rfl

end Rule

/-- The number that is written as the value. -/
def Value.toNumber (v : Value) : Number :=
  v.number?.getD (.int 0)

private theorem Value.toNumber_ofNumber : Function.LeftInverse toNumber ofNumber := by
  intro x
  cases x <;> rfl

private theorem injective_of_decodes {ε α : Type} {form : α → Value} {decode : Value → Except ε α}
    (h : ∀ a, decode (form a) = .ok a) : Function.Injective form := by
  intro a b hform
  have hdecode : decode (form a) = decode (form b) := congrArg decode hform
  rw [h, h] at hdecode
  exact Except.ok.inj hdecode

/-- Records are read back from their forms, whether their bounds are numbers or values of any kind,
and so are rules; so no two records, and no two rules, have the same form. -/
theorem forms_lose_nothing :
    (∀ r : Record Number, Record.decode Value.toNumber r.form = .ok r) ∧
    (∀ r : Record Value, Record.decode id r.form = .ok r) ∧
    (∀ r : Rule, Rule.read r.form = .ok r) ∧
    Function.Injective (Record.form : Record Number → Value) ∧
    Function.Injective (Record.form : Record Value → Value) ∧
    Function.Injective Rule.form := by
  have hnumbers (r : Record Number) := Record.decode_form Value.toNumber_ofNumber r
  have hvalues (r : Record Value) : Record.decode id r.form = .ok r :=
    Record.decode_form (fun _ => rfl) r
  exact ⟨hnumbers, hvalues, Rule.read_form, injective_of_decodes hnumbers,
    injective_of_decodes hvalues, injective_of_decodes Rule.read_form⟩

end TermRules
