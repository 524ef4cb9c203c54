import TermRules.Proofs.Registry.Container

/-!
The axes of an object descriptor. The options of a key or of a value lay their constraints over
their type, and that is all they do: their format and their own axes are not looked at. So they mean
what they would mean as a descriptor of their own only if they ask for neither.
-/

namespace TermRules

namespace Record

variable {r : Record Number}

/-- An object that stands alone has the records of its axes, and these compile. -/
theorem axes_of_singleton {t : Term} (hr : ofHierarchy [t] = .ok r)
    (hobject : t.category = Category.object.name) :
    r.keyRecord = axisRecord t.keyAxis ∧ r.valueRecord = axisRecord t.valueAxis ∧
      AxesCompile t := by
  obtain ⟨ls, hl, -⟩ := Record.ofHierarchy_eq_ok_iff.mp hr
  obtain ⟨c, axes, haxes⟩ := axesOf_of_levels_ok hl t (by simp)
  obtain ⟨hc, -, hcompile⟩ := axesOf_ok haxes
  obtain rfl : c = .object := Category.name_injective (hc.symm.trans hobject)
  obtain rfl := eq_ofRun_of_category hr (by simp) (by simpa using hobject)
  exact ⟨lastSet_singleton (fun t => axisRecord t.keyAxis) t,
    lastSet_singleton (fun t => axisRecord t.valueAxis) t, hcompile rfl⟩

end Record

namespace Registry

variable {r : Registry} {o d : Options} {type : String} {types : Hierarchy}
  {part : Option Options} {axis : Option Hierarchy} {record k : Record Number}

def objectTerm : Term := standardTerm Vocabulary.object .object Vocabulary.root

/-- The options ask for nothing that those of an axis are not asked for: a container, or axes. -/
def IsAxisOnly (o : Options) (type : String) (types : Hierarchy) : Prop :=
  containerOf type o.format = .ok none ∧
    (isObject types = true → ∀ p, o.key = some p ∨ o.value = some p → p.type = none)

/-- Where the options of an axis name a type, the record of the axis is that of the type under their
constraints. It is that of the options as a descriptor if they are for an axis only, and apart from
records of lists it is so only then. -/
def DescribesAxis (r : Registry) (part : Option Options) (found : Option (Record Number)) : Prop :=
  ∀ o type, part = some o → o.type = some type → ∃ types k, r.resolve type = .ok types ∧
    found = some k ∧ r.compileReference type o = .ok k ∧
    (IsAxisOnly o type types → r.compileOptions o = .ok k) ∧
    (r.HoldsContainers → k.category ≠ some .list → r.compileOptions o = .ok k →
      IsAxisOnly o type types)

section Object

variable (hobject : r.ofKey? Vocabulary.object = some objectTerm)
include hobject

/-- The object type is alone in its chain. -/
theorem eq_objectTerm_of_isObject (htypes : r.resolve type = .ok types)
    (h : isObject types = true) : types = [objectTerm] := by
  obtain ⟨t, hlookup, hclimbs, -⟩ := resolve_eq_ok_iff.mp htypes
  have hkey : t.key = Vocabulary.object := by
    rw [isObject, hclimbs.head] at h
    simpa using h
  have ht := ofKey?_key_of_lookup hlookup
  rw [hkey, hobject] at ht
  obtain rfl := Option.some.inj ht
  exact eq_singleton_of_climbs hclimbs rfl

private theorem isObject_of_resolve_object (h : r.resolve Vocabulary.object = .ok types) :
    isObject types = true := by
  obtain ⟨t, hlookup, hclimbs, -⟩ := resolve_eq_ok_iff.mp h
  rw [lookup_of_ofKey? hobject] at hlookup
  obtain rfl := Option.some.inj hlookup
  rw [isObject, hclimbs.head]
  rfl

end Object

private theorem compileOptions_eq_ok (h : r.compileOptions o = .ok record) :
    ∃ hierarchy, r.descriptorHierarchy o = .ok hierarchy ∧
    Record.ofHierarchy hierarchy = .ok record := by
  obtain ⟨hierarchy, hhierarchy, h⟩ := bind_eq_ok_iff.mp h
  exact ⟨hierarchy, hhierarchy, mapError_eq_ok_iff.mp h⟩

/-- In a container format the record on top is one of lists, whatever the type is. -/
theorem category_of_container (hr : r.HoldsContainers) {key : String} (ho : o.type = some type)
    (hformat : containerOf type o.format = .ok (some key)) (h : r.compileOptions o = .ok record) :
    record.category = some .list := by
  obtain ⟨hierarchy, hhierarchy, hrecord⟩ := compileOptions_eq_ok h
  obtain ⟨type', container, types, inner, outer, htype, hcontainer, -, -, houter, hlaid⟩ :=
    descriptorHierarchy_eq_ok hhierarchy
  obtain rfl := Option.some.inj (ho.symm.trans htype)
  obtain rfl := Except.ok.inj (hformat.symm.trans hcontainer)
  obtain ⟨format, -, hkey⟩ := containerOf_eq_some hformat
  obtain rfl := hr.eq_of_resolve hkey houter
  have hcategories : hierarchy.map Term.category =
      inner.map Term.category ++ (containerChain format).map Term.category := by
    rw [hlaid, ← List.map_append]
    split
    · rfl
    · exact Hierarchy.categories_of_retunes (Hierarchy.retunes_inject o.constraints _)
  have hlast : (hierarchy.map Term.category).getLast? = some Category.list.name := by
    rw [hcategories, List.getLast?_append, containerChain]
    split <;> rfl
  rw [List.getLast?_map] at hlast
  obtain ⟨t, ht, htlist⟩ := Option.map_eq_some_iff.mp hlast
  exact Record.category_of_getLast hrecord ht htlist

section Axis

private theorem axisOf_of_untyped (h : ∀ p, part = some p → p.type = none) :
    r.axisOf part = .ok none := by
  cases part with
  | none => rfl
  | some p => simp only [axisOf, h p rfl]

private theorem axisOf_of_typed (ho : o.type = some type) (h : r.axisOf (some o) = .ok axis) :
    ∃ types, r.resolve type = .ok types ∧ axis = some (types.inject o.constraints) := by
  simp only [axisOf, ho] at h
  obtain ⟨types, htypes, h⟩ := bind_eq_ok_iff.mp h
  exact ⟨types, htypes, (pure_eq_ok_iff.mp h).symm⟩

theorem compileReference_of_resolve (htypes : r.resolve type = .ok types) :
    r.compileReference type o = compile (types.inject o.constraints) := by
  rw [compileReference, htypes]
  rfl

/-- An axis that has been resolved and compiles has the record of its type under its constraints. -/
theorem exists_record_of_axisOf (ho : o.type = some type) (h : r.axisOf (some o) = .ok axis)
    (hcompiles : ∀ terms, axis = some terms → ∃ k, Record.ofHierarchy terms = .ok k) :
    ∃ types k, r.resolve type = .ok types ∧ Record.axisRecord axis = some k ∧
      r.compileReference type o = .ok k := by
  obtain ⟨types, htypes, rfl⟩ := axisOf_of_typed ho h
  obtain ⟨k, hk⟩ := hcompiles _ rfl
  have hne := Hierarchy.inject_ne_nil (ne_nil_of_resolve htypes) o.constraints
  refine ⟨types, k, htypes, Record.axisRecord_eq_some_iff.mpr ⟨_, rfl, hne, hk⟩, ?_⟩
  rw [compileReference_of_resolve htypes]
  exact mapError_eq_ok_iff.mpr hk

/-- Only options without a type leave an axis that has been resolved without a record. -/
theorem untyped_of_axisRecord (h : r.axisOf part = .ok axis)
    (hcompiles : ∀ terms, axis = some terms → ∃ k, Record.ofHierarchy terms = .ok k)
    (hnone : Record.axisRecord axis = none) : ∀ p, part = some p → p.type = none := by
  rintro p rfl
  cases hp : p.type with
  | none => rfl
  | some type =>
      obtain ⟨-, k, -, hk, -⟩ := exists_record_of_axisOf hp h hcompiles
      rw [hnone] at hk
      contradiction

end Axis

section Meaning

variable (hobject : r.ofKey? Vocabulary.object = some objectTerm)
include hobject

/-- The records of the axes of an object descriptor. -/
theorem axes_of_compileOptions (ho : o.type = some type)
    (hformat : containerOf type o.format = .ok none) (htypes : r.resolve type = .ok types)
    (h : isObject types = true) (hrecord : r.compileOptions o = .ok record) :
    ∃ keys values, r.axisOf o.key = .ok keys ∧ r.axisOf o.value = .ok values ∧
      record.keyRecord = Record.axisRecord keys ∧ record.valueRecord = Record.axisRecord values ∧
      ∀ terms, keys = some terms ∨ values = some terms → ∃ k, Record.ofHierarchy terms = .ok k := by
  obtain ⟨hierarchy, hhierarchy, hrecord⟩ := compileOptions_eq_ok hrecord
  rw [descriptorHierarchy_scalar ho hformat, htypes] at hhierarchy
  change r.elementHierarchy o types = .ok hierarchy at hhierarchy
  rw [elementHierarchy, if_pos h, eq_objectTerm_of_isObject hobject htypes h] at hhierarchy
  obtain ⟨keys, hkeys, hhierarchy⟩ := bind_eq_ok_iff.mp hhierarchy
  obtain ⟨values, hvalues, hhierarchy⟩ := bind_eq_ok_iff.mp hhierarchy
  obtain rfl := pure_eq_ok_iff.mp hhierarchy
  obtain ⟨hkey, hvalue, hcompile⟩ := Record.axes_of_singleton hrecord rfl
  exact ⟨keys, values, hkeys, hvalues, hkey, hvalue, hcompile⟩

private theorem compileOptions_of_isAxisOnly (ho : o.type = some type)
    (htypes : r.resolve type = .ok types) (honly : IsAxisOnly o type types) :
    r.compileOptions o = r.compileReference type o := by
  rw [compileOptions, descriptorHierarchy_scalar ho honly.1, htypes,
    compileReference_of_resolve htypes]
  change r.elementHierarchy o types >>= compile = _
  cases h : isObject types with
  | false =>
      rw [elementHierarchy, h]
      rfl
  | true =>
      have hkey : r.axisOf o.key = .ok none :=
        axisOf_of_untyped fun p hp => honly.2 h p (.inl hp)
      have hvalue : r.axisOf o.value = .ok none :=
        axisOf_of_untyped fun p hp => honly.2 h p (.inr hp)
      obtain rfl := eq_objectTerm_of_isObject hobject htypes h
      rw [elementHierarchy, if_pos h, withAxes, hkey, hvalue]
      rfl

private theorem isAxisOnly_of_compileOptions (hr : r.HoldsContainers) (ho : o.type = some type)
    (htypes : r.resolve type = .ok types) (hk : r.compileReference type o = .ok k)
    (hlist : k.category ≠ some .list) (h : r.compileOptions o = .ok k) :
    IsAxisOnly o type types := by
  obtain ⟨hierarchy, hhierarchy, -⟩ := compileOptions_eq_ok h
  obtain ⟨type', container, -, -, -, htype, hcontainer, -⟩ := descriptorHierarchy_eq_ok hhierarchy
  obtain rfl := Option.some.inj (ho.symm.trans htype)
  cases container with
  | some key => exact absurd (category_of_container hr ho hcontainer h) hlist
  | none =>
      refine ⟨hcontainer, fun hflag p hp => ?_⟩
      obtain ⟨keys, values, hkeys, hvalues, hkey, hvalue, hcompiles⟩ :=
        axes_of_compileOptions hobject ho hcontainer htypes hflag h
      -- The type by itself has no axes, so an axis with a type would be missing from its record.
      obtain rfl := eq_objectTerm_of_isObject hobject htypes hflag
      obtain ⟨hnokeys, hnovalues⟩ : k.keyRecord = none ∧ k.valueRecord = none := by
        rw [compileReference_of_resolve htypes] at hk
        cases hk
        exact ⟨rfl, rfl⟩
      rcases hp with hp | hp
      · exact untyped_of_axisRecord hkeys (fun terms hterms => hcompiles terms (.inl hterms))
          (hkey.symm.trans hnokeys) p hp
      · exact untyped_of_axisRecord hvalues (fun terms hterms => hcompiles terms (.inr hterms))
          (hvalue.symm.trans hnovalues) p hp

private theorem describesAxis_of_axisOf (h : r.axisOf part = .ok axis)
    (hcompiles : ∀ terms, axis = some terms → ∃ k, Record.ofHierarchy terms = .ok k) :
    r.DescribesAxis part (Record.axisRecord axis) := by
  rintro o type rfl ho
  obtain ⟨types, k, htypes, hfound, hk⟩ := exists_record_of_axisOf ho h hcompiles
  refine ⟨types, k, htypes, hfound, hk, fun honly => ?_, fun hr hlist hsame => ?_⟩
  · rw [compileOptions_of_isAxisOnly hobject ho htypes honly, hk]
  · exact isAxisOnly_of_compileOptions hobject hr ho htypes hk hlist hsame

/-- An object descriptor describes its keys and its values by the types of its axes, each under the
constraints of the axis and no more. -/
theorem compileOptions_describesAxes (hd : d.type = some Vocabulary.object)
    (hformat : containerOf Vocabulary.object d.format = .ok none)
    (hrecord : r.compileOptions d = .ok record) :
    r.DescribesAxis d.key record.keyRecord ∧ r.DescribesAxis d.value record.valueRecord := by
  obtain ⟨hierarchy, hhierarchy, -⟩ := compileOptions_eq_ok hrecord
  obtain ⟨type, container, types, -, -, htype, -, htypes, -⟩ := descriptorHierarchy_eq_ok hhierarchy
  obtain rfl := Option.some.inj (hd.symm.trans htype)
  have hflag := isObject_of_resolve_object hobject htypes
  obtain ⟨keys, values, hkeys, hvalues, hkey, hvalue, hcompiles⟩ :=
    axes_of_compileOptions hobject hd hformat htypes hflag hrecord
  rw [hkey, hvalue]
  exact ⟨describesAxis_of_axisOf hobject hkeys fun terms hterms => hcompiles terms (.inl hterms),
    describesAxis_of_axisOf hobject hvalues fun terms hterms => hcompiles terms (.inr hterms)⟩

end Meaning

theorem compileOptions_tallies_axes :
    ∃ record k v, (standard 10).compileOptions tallies = .ok record ∧
      record.keyRecord = some k ∧ record.valueRecord = some v ∧
      (standard 10).compileOptions { type := some Vocabulary.hex } = .ok k ∧
      (standard 10).compileOptions { type := some Vocabulary.integer } = .ok v := by
  obtain ⟨record, hrecord⟩ : ∃ record, (standard 10).compileOptions tallies = .ok record := ⟨_, rfl⟩
  have h := compileOptions_describesAxes (r := standard 10) rfl rfl rfl hrecord
  obtain ⟨types, k, htypes, hk, -, hkonly, -⟩ := h.1 _ _ rfl rfl
  obtain ⟨types', v, htypes', hv, -, hvonly, -⟩ := h.2 _ _ rfl rfl
  exact ⟨record, k, v, hrecord, hk, hv, hkonly ⟨rfl, fun _ _ hp => by simp at hp⟩,
    hvonly ⟨rfl, fun _ _ hp => by simp at hp⟩⟩

/-- Objects whose values are lists of whole numbers. -/
def tallyLists : Options where
  type := some Vocabulary.object
  value := some { type := some Vocabulary.integer, format := some "list" }

/-- The record of the values is that of single whole numbers, not of lists of them. -/
theorem compileOptions_tallyLists_value :
    ∃ record v lists, (standard 10).compileOptions tallyLists = .ok record ∧
      record.valueRecord = some v ∧
      (standard 10).compileOptions { type := some Vocabulary.integer, format := some "list" } =
        .ok lists ∧
      v ≠ lists := by
  refine ⟨_, _, _, rfl, rfl, rfl, fun h => ?_⟩
  have hcategory := congrArg Record.category h
  contradiction

end Registry

end TermRules
