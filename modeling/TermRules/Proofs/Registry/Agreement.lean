import TermRules.Program
import TermRules.Proofs.Registry.Axes
import TermRules.Proofs.Registry.Override

/-!
A type asked for under options, and a descriptor in scalar format that names the type and has the
same options. They come to the same record or to the same failure, unless the type is the object
type itself: a descriptor gives it axes of its own and lays no options over it. Options with axes,
and containers, are left out.
-/

namespace TermRules

namespace Registry

variable {r : Registry} {o : Options} {type : String} {types : Hierarchy}

private theorem compile_of_alike {h h' : Hierarchy} (halike : List.Forall₂ Term.Alike h h') :
    compile h' = compile h :=
  Record.ofHierarchy_of_alike halike

private theorem containerOf_scalar (hformat : o.format = none ∨ o.format = some scalarFormat) :
    containerOf type o.format = .ok none := by
  rcases hformat with h | h <;> rw [h] <;> rfl

/-- Without options for its axes, a descriptor of the object type compiles to the type without any
axes and without any options. -/
theorem compile_elementHierarchy_of_object {t : Term} {general : Hierarchy} (hkey : o.key = none)
    (hvalue : o.value = none) (hobject : isObject (t :: general) = true) :
    r.elementHierarchy o (t :: general) >>= compile = compile (t.setAxes none none :: general) := by
  rw [elementHierarchy, if_pos hobject, withAxes, hkey, hvalue]
  rfl

/-- The type of the objects, if options make no difference to it: its own term has no axes, and no
term of its chain is read for what the options set. -/
def IsPlainObject (o : Options) (types : Hierarchy) : Prop :=
  (∀ t ∈ types.head?, t.IsBare) ∧ types.Ignores o.constraints

private theorem compile_elementHierarchy (hkey : o.key = none) (hvalue : o.value = none)
    (hobject : isObject types = true → IsPlainObject o types) :
    r.elementHierarchy o types >>= compile = compile (types.inject o.constraints) := by
  cases hflag : isObject types with
  | false =>
      rw [elementHierarchy, hflag]
      rfl
  | true =>
      obtain ⟨hbare, hignores⟩ := hobject hflag
      cases types with
      | nil => contradiction
      | cons t general =>
          have hsame : List.Forall₂ Term.Alike (t :: general) (t.setAxes none none :: general) := by
            have : Std.Refl Term.Alike := ⟨Term.Alike.refl⟩
            exact .cons (.setAxes (hbare t rfl)) (List.forall₂_refl general)
          rw [compile_elementHierarchy_of_object hkey hvalue hflag, compile_of_alike hsame,
            compile_of_alike hignores.alike]

private theorem compileReference_of_unresolved {f : Failure} (h : r.resolve type = .error f) :
    r.compileReference type o = .error f := by
  rw [compileReference, h]
  rfl

/-- Options that have been read lay the same over a type as those that they were read from. -/
theorem compileSource_eq_compileReference [Readable Options] [Readable Term] {options : Value}
    (hread : options.read = .found o) :
    r.compileSource options (.text type) = r.compileReference type o := by
  cases htypes : r.resolve type with
  | error f =>
      rw [compileReference_of_unresolved htypes, compileSource, hierarchyOf, htypes]
      rfl
  | ok types => rw [compileSource_of_read htypes hread, compileReference_of_resolve htypes]

private theorem compileOptions_scalar_bind (hformat : o.format = none ∨
    o.format = some scalarFormat) :
    r.compileOptions { o with type := some type } =
      r.resolve type >>= fun types =>
        r.elementHierarchy { o with type := some type } types >>= compile := by
  have hdescriptor := descriptorHierarchy_scalar (r := r) (o := { o with type := some type }) rfl
    (containerOf_scalar hformat)
  rw [compileOptions, hdescriptor]
  cases r.resolve type <;> rfl

/-- A descriptor in scalar format and the type that it names, under the same options, have the
same record or fail alike, as long as the type is not the object type or is one to which options
make no difference. A descriptor of the object type always stands for it without any axes and
without the options. -/
theorem compileOptions_eq_compileReference [Readable Options] [Readable Term] (hkey : o.key = none)
    (hvalue : o.value = none) (hformat : o.format = none ∨ o.format = some scalarFormat) :
    ((∀ types, r.resolve type = .ok types → isObject types = true → IsPlainObject o types) →
      r.compileOptions { o with type := some type } = r.compileReference type o ∧
      ∀ options : Value, options.read = .found o →
        r.compileOptions { o with type := some type } = r.compileSource options (.text type)) ∧
    ∀ t general, r.resolve type = .ok (t :: general) → isObject (t :: general) = true →
      r.compileOptions { o with type := some type } = compile (t.setAxes none none :: general) := by
  refine ⟨fun hobject => ?_, fun t general htypes hflag => ?_⟩
  · have hsame : r.compileOptions { o with type := some type } = r.compileReference type o := by
      rw [compileOptions_scalar_bind hformat]
      cases htypes : r.resolve type with
      | error f =>
          rw [compileReference_of_unresolved htypes]
          rfl
      | ok types =>
          rw [compileReference_of_resolve htypes]
          exact compile_elementHierarchy (o := { o with type := some type }) hkey hvalue
            (hobject types htypes)
    exact ⟨hsame, fun options hread => hsame.trans (compileSource_eq_compileReference hread).symm⟩
  · rw [compileOptions_scalar_bind hformat, htypes]
    exact compile_elementHierarchy_of_object (o := { o with type := some type }) hkey hvalue hflag

/-- Options with a size and nothing else. -/
def sized : Options := { constraints := { size := some ⟨.int 1, .int 5, true, true⟩ } }

section Program

open Program

theorem compileOptions_sized_object :
    (standard 10).compileOptions { sized with type := some Vocabulary.object } =
      (standard 10).compileReference Vocabulary.object sized := by
  refine ((compileOptions_eq_compileReference rfl rfl (.inl rfl)).1 fun types htypes _ => ?_).1
  cases htypes
  refine ⟨fun t ht axis haxis => ?_, Hierarchy.ignores_of_objects (by decide) _⟩
  cases ht
  simp [standardTerm] at haxis

end Program

/-- The standard registry with objects whose keys are names. -/
def withNamedObjects : Registry :=
  (standard 10).add
    { objectTerm with keyAxis := some [{ id := "terms/name", key := "name", category := "text" }] }

/-- The standard registry with numbers in place of objects. -/
def withNumbersForObjects : Registry :=
  (standard 10).add (standardTerm Vocabulary.object .numeric Vocabulary.root)

/-- Two decimals for a number. -/
def cents : Options := { constraints := { decimals := some 2 } }

/-- An object type with axes loses them, and one of numbers takes no decimals. -/
theorem compileOptions_object_ne_compileReference :
    (∃ record named,
      withNamedObjects.compileOptions { type := some Vocabulary.object } = .ok record ∧
      withNamedObjects.compileReference Vocabulary.object {} = .ok named ∧
      record.keyRecord = none ∧ named.keyRecord ≠ none) ∧
    ∃ record rounded,
      withNumbersForObjects.compileOptions { cents with type := some Vocabulary.object } =
      .ok record ∧
      withNumbersForObjects.compileReference Vocabulary.object cents = .ok rounded ∧
      record.decimals = none ∧ rounded.decimals = some 2 :=
  ⟨⟨_, _, rfl, rfl, rfl, nofun⟩, ⟨_, _, rfl, rfl, rfl, rfl⟩⟩

end Registry

end TermRules
