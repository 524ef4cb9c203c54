import TermRules.Proofs.Record.Container
import TermRules.Proofs.Record.Retuned
import TermRules.Proofs.Record.Uniform
import TermRules.Proofs.Registry.Descriptor
import TermRules.Proofs.Registry.Resolution

/-!
Descriptors in a container format. Over a type without lists of its own, the container neither takes
options away from the type nor merges with its terms: what the type compiles to alone stands as it
is below the record of the container. Only the size is for the container, and the object type does
not hand its options on.
-/

namespace TermRules

namespace Options

/-- The options for values of the type in the format. -/
def inFormat (o : Options) (type format : String) : Options :=
  { o with type := some type, format := some format }

end Options

namespace Registry

variable {r : Registry} {o : Options} {type format key : String} {types outer : Hierarchy}

/-- The registry has the standard terms of both containers. -/
structure HoldsContainers (r : Registry) : Prop where
  list : r.ofKey? Vocabulary.list =
    some (standardTerm Vocabulary.list .list Vocabulary.root)
  set : r.ofKey? Vocabulary.set =
    some (standardTerm Vocabulary.set .list Vocabulary.list)

section Chain

/-- The chain of the container of a format. -/
def containerChain (format : String) : Hierarchy :=
  let list := standardTerm Vocabulary.list .list Vocabulary.root
  if format = "set" then [standardTerm Vocabulary.set .list Vocabulary.list, list] else [list]

private theorem HoldsContainers.isChainOf (hr : r.HoldsContainers)
    (hkey : containers.lookup format = some key) : r.IsChainOf key (containerChain format) := by
  have hlist := lookup_of_ofKey? hr.list
  have hset := lookup_of_ofKey? hr.set
  have hclimbs := Climbs.last (r := r)
    (t := standardTerm Vocabulary.list .list Vocabulary.root) rfl
  rcases containers_lookup hkey with ⟨rfl, rfl⟩ | ⟨rfl, rfl⟩
  · exact ⟨⟨_, hlist, hclimbs⟩, by decide⟩
  · exact ⟨⟨_, hset, .link rfl (by decide) hlist hclimbs⟩, by decide⟩

private theorem length_containerChain_le (format : String) :
    (containerChain format).length ≤ 2 := by
  rw [containerChain]
  split <;> simp

private theorem HoldsContainers.resolve (hr : r.HoldsContainers) (hdepth : 2 ≤ r.maxDepth)
    (hkey : containers.lookup format = some key) : r.resolve key = .ok (containerChain format) := by
  have hlength := length_containerChain_le format
  rw [resolve_of_isChainOf (hr.isChainOf hkey), if_neg (by omega)]

theorem HoldsContainers.eq_of_resolve (hr : r.HoldsContainers)
    (hkey : containers.lookup format = some key) (h : r.resolve key = .ok outer) :
    outer = containerChain format := by
  rw [resolve_of_isChainOf (hr.isChainOf hkey)] at h
  split at h
  · contradiction
  · exact (Except.ok.inj h).symm

private theorem containerChain_ne_nil (format : String) : containerChain format ≠ [] := by
  rw [containerChain]
  split <;> simp

private theorem category_of_mem_containerChain :
    ∀ t ∈ containerChain format, t.category = Category.list.name := by
  rw [containerChain]
  split <;> simp [standardTerm]

private theorem containerChain_reference (format : String) :
    (containerChain format).any Axis.reference.selects = false := by
  rw [containerChain]
  split <;> rfl

/-- The record of the container, with the size that the constraints set. -/
def containerLevel (c : Constraints) (format : String) : Record Number :=
  Record.ofRun .list (Hierarchy.injectAxis .list c (containerChain format)).reverse

private theorem levels_container (c : Constraints) (format : String) :
    Record.levels (Hierarchy.injectAxis .list c (containerChain format)) =
      .ok [containerLevel c format] := by
  have hretunes := Hierarchy.retunes_injectAxis .list c (containerChain format)
  have hcategory : ∀ u ∈ Hierarchy.injectAxis .list c (containerChain format),
      u.category = Category.list.name := by
    intro u hu
    obtain ⟨t, ht, htu⟩ := exists_of_mem_right hretunes hu
    rw [htu.category, category_of_mem_containerChain t ht]
  rw [containerLevel]
  cases h : Hierarchy.injectAxis .list c (containerChain format) with
  | nil =>
      rw [h, List.forall₂_nil_right_iff] at hretunes
      exact absurd hretunes (containerChain_ne_nil format)
  | cons t general =>
      rw [h] at hcategory
      exact Record.levels_of_category (c := .list) nofun t hcategory

private theorem containerLevel_set (c : Constraints) (format : String) :
    (containerLevel c format).marks.set = true ↔ format = "set" := by
  rw [containerLevel, containerChain]
  by_cases hset : format = "set"
  · rw [if_pos hset]
    exact iff_of_true rfl hset
  · rw [if_neg hset]
    exact iff_of_false Bool.false_ne_true hset

private theorem containerLevel_size (c : Constraints) (format : String) :
    (containerLevel c format).size = c.size.map Interval.normalize := by
  obtain ⟨length, regex, range, decimals, size, target⟩ := c
  rw [containerLevel, containerChain]
  split <;> cases size <;> rfl

end Chain

section Descriptors

/-- The hierarchy of a type under options, apart from any container. -/
def elementHierarchy (r : Registry) (o : Options) (types : Hierarchy) : Except Failure Hierarchy :=
  if isObject types then r.withAxes o types else .ok (types.inject o.constraints)

/-- The constraints that options lay over the hierarchy of a type. -/
def laidOver (o : Options) (types : Hierarchy) : Constraints :=
  if isObject types then {} else o.constraints

private theorem laidOver_object (h : isObject types = true) : laidOver o types = {} :=
  if_pos h

private theorem laidOver_other (h : isObject types = false) : laidOver o types = o.constraints := by
  rw [laidOver, h, if_neg Bool.false_ne_true]

theorem ne_nil_of_resolve (h : r.resolve type = .ok types) : types ≠ [] := by
  obtain ⟨t, -, hclimbs, -⟩ := resolve_eq_ok_iff.mp h
  have hhead := hclimbs.head
  rintro rfl
  contradiction

theorem descriptorHierarchy_scalar (htype : o.type = some type)
    (hformat : containerOf type o.format = .ok none) :
    r.descriptorHierarchy o = r.resolve type >>= r.elementHierarchy o := by
  simp only [descriptorHierarchy, htype, hformat]
  cases r.resolve type with
  | error f => rfl
  | ok types =>
      cases hobject : isObject types with
      | false =>
          simp [elementHierarchy, hobject, bind, Except.bind, pure, Except.pure]
      | true =>
          simp only [elementHierarchy, hobject, bind, Except.bind]
          cases r.withAxes o types <;> simp [pure, Except.pure]

private theorem compileOptions_scalar (htypes : r.resolve type = .ok types) :
    r.compileOptions (o.inFormat type scalarFormat) = r.elementHierarchy o types >>= compile := by
  have hscalar : r.elementHierarchy (o.inFormat type scalarFormat) types =
      r.elementHierarchy o types := by
    cases types <;> rfl
  rw [compileOptions,
    descriptorHierarchy_scalar (o := o.inFormat type scalarFormat) rfl rfl, htypes, ← hscalar]
  rfl

private theorem categories_of_elementHierarchy {inner : Hierarchy}
    (h : r.elementHierarchy o types = .ok inner) :
    inner.map Term.category = types.map Term.category := by
  rw [elementHierarchy] at h
  split at h
  · cases types with
    | nil =>
        cases h
        rfl
    | cons t general =>
        obtain ⟨keys, -, h⟩ := bind_eq_ok_iff.mp h
        obtain ⟨values, -, h⟩ := bind_eq_ok_iff.mp h
        rw [← pure_eq_ok_iff.mp h]
        rfl
  · rw [← Except.ok.inj h]
    exact Hierarchy.categories_of_retunes (Hierarchy.retunes_inject o.constraints types)

private theorem containerOf_of_lookup (hformat : containers.lookup format = some key) :
    containerOf type (some format) = .ok (some key) := by
  rcases containers_lookup hformat with ⟨rfl, rfl⟩ | ⟨rfl, rfl⟩ <;> rfl

/-- The descriptor of a type that is none of lists has the same hierarchy in a container format as
in scalar format, and above it the container with the size. -/
theorem descriptorHierarchy_container (hformat : containers.lookup format = some key)
    (houter : r.resolve key = .ok (containerChain format)) (htypes : r.resolve type = .ok types)
    (hlists : types.any Term.isList = false) :
    r.descriptorHierarchy (o.inFormat type format) =
      (· ++ Hierarchy.injectAxis .list (laidOver o types) (containerChain format)) <$>
        r.elementHierarchy o types := by
  have hcontainer : containerOf type (o.inFormat type format).format = .ok (some key) :=
    containerOf_of_lookup hformat
  have htype : (o.inFormat type format).type = some type := rfl
  have hsame : r.withAxes (o.inFormat type format) types = r.withAxes o types := by
    cases types <;> rfl
  cases hobject : isObject types with
  | false =>
      have hall : (containerChain format).all Term.isList = true := by
        simpa [Term.isList, Category.name] using category_of_mem_containerChain
      have hinject := Hierarchy.inject_container o.constraints hlists hall
        (containerChain_ne_nil format) (containerChain_reference format)
      simp only [descriptorHierarchy, htype, hcontainer, htypes, houter, hobject, elementHierarchy,
        laidOver, bind, Except.bind, pure, Except.pure, Bool.false_eq_true, if_false]
      exact congrArg Except.ok hinject
  | true =>
      simp only [descriptorHierarchy, htype, hcontainer, htypes, houter, hobject, elementHierarchy,
        laidOver, bind, Except.bind, pure, Except.pure, if_true, hsame, Hierarchy.injectAxis_empty]
      cases r.withAxes o types <;> rfl

private theorem compile_container {inner : Hierarchy} (c : Constraints) (format : String)
    (hne : inner ≠ []) (hlists : ∀ t ∈ inner, t.category ≠ Category.list.name) :
    compile (inner ++ Hierarchy.injectAxis .list c (containerChain format)) =
      (fun element => { containerLevel c format with child := some element }) <$>
      compile inner := by
  rw [compile, Record.ofHierarchy_append (levels_container c format) rfl hne hlists, compile]
  cases Record.ofHierarchy inner <;> rfl

/-- In a container format a type that is none of lists has the record of the container with its own
scalar record below it, and it fails as in scalar format. -/
theorem compileOptions_inFormat (hr : r.HoldsContainers) (hdepth : 2 ≤ r.maxDepth)
    (hformat : containers.lookup format = some key) (htypes : r.resolve type = .ok types)
    (hlists : ∀ t ∈ types, t.category ≠ Category.list.name) :
    r.compileOptions (o.inFormat type format) =
      (fun element => { containerLevel (laidOver o types) format with child := some element }) <$>
        r.compileOptions (o.inFormat type scalarFormat) := by
  have hany : types.any Term.isList = false := by
    simpa [Term.isList, Category.name] using hlists
  have hcontainer := descriptorHierarchy_container (o := o) hformat (hr.resolve hdepth hformat)
    htypes hany
  rw [compileOptions, hcontainer, compileOptions_scalar htypes]
  cases hinner : r.elementHierarchy o types with
  | error f => rfl
  | ok inner =>
      have hcategories := categories_of_elementHierarchy hinner
      have hne : inner ≠ [] := by
        rintro rfl
        have hempty : types = [] := by simpa using hcategories
        exact ne_nil_of_resolve htypes hempty
      have hinner : ∀ t ∈ inner, t.category ≠ Category.list.name := by
        intro t ht hlist
        have hmem : t.category ∈ types.map Term.category := by
          rw [← hcategories]
          exact List.mem_map_of_mem ht
        obtain ⟨u, hu, hut⟩ := List.mem_map.mp hmem
        exact hlists u hu (hut.trans hlist)
      exact compile_container (laidOver o types) format hne hinner

private theorem compileOptions_of_unresolved {f : Failure} (h : r.resolve type = .error f)
    {container : Option String} (hformat : containerOf type (some format) = .ok container) :
    r.compileOptions (o.inFormat type format) = .error f := by
  have hcontainer : containerOf type (o.inFormat type format).format = .ok container := hformat
  have htype : (o.inFormat type format).type = some type := rfl
  simp only [compileOptions, descriptorHierarchy, htype, hcontainer, h, bind, Except.bind]

end Descriptors

private theorem exists_container (hformat : format = "list" ∨ format = "set") :
    ∃ key, containers.lookup format = some key := by
  rcases hformat with rfl | rfl
  · exact ⟨Vocabulary.list, rfl⟩
  · exact ⟨Vocabulary.set, rfl⟩

/-- A list or a set of a type that is none of lists compiles exactly if the type does and fails as
the type does. Its record is one of lists that has what the type compiles to by itself below it. -/
theorem compileOptions_container_iff (hr : r.HoldsContainers) (hdepth : 2 ≤ r.maxDepth)
    (hformat : format = "list" ∨ format = "set")
    (hlists : ∀ types, r.resolve type = .ok types → ∀ t ∈ types, t.category ≠ Category.list.name) :
    (∀ f, r.compileOptions (o.inFormat type format) = .error f ↔
      r.compileOptions (o.inFormat type scalarFormat) = .error f) ∧
    ∀ record, r.compileOptions (o.inFormat type format) = .ok record →
      record.category = some .list ∧ (record.marks.set = true ↔ format = "set") ∧
      record.keyRecord = none ∧ record.valueRecord = none ∧
      ∃ element, record.child = some element ∧
        r.compileOptions (o.inFormat type scalarFormat) = .ok element := by
  obtain ⟨key, hkey⟩ := exists_container hformat
  cases htypes : r.resolve type with
  | error f =>
      have hscalar : containerOf type (some scalarFormat) = .ok none := rfl
      rw [compileOptions_of_unresolved htypes (containerOf_of_lookup hkey),
        compileOptions_of_unresolved htypes hscalar]
      exact ⟨fun _ => Iff.rfl, nofun⟩
  | ok types =>
      rw [compileOptions_inFormat hr hdepth hkey htypes (hlists types htypes)]
      cases r.compileOptions (o.inFormat type scalarFormat) with
      | error f => exact ⟨fun _ => Iff.rfl, nofun⟩
      | ok element =>
          refine ⟨fun _ => ⟨nofun, nofun⟩, fun record hrecord => ?_⟩
          obtain ⟨_, hsame, rfl⟩ := map_eq_ok_iff.mp hrecord
          exact ⟨rfl, containerLevel_set _ format, rfl, rfl, element,
            congrArg some (Except.ok.inj hsame).symm, rfl⟩

/-- Objects with hexadecimal keys and whole numbers for values, and a size. -/
def sizedTallies : Options :=
  { tallies with constraints := { size := some ⟨.int 5, .int 1, true, false⟩ } }

private theorem standard_holdsContainers : (standard 10).HoldsContainers := ⟨rfl, rfl⟩

private theorem object_not_list (types : Hierarchy)
    (h : (standard 10).resolve Vocabulary.object = .ok types) :
    ∀ t ∈ types, t.category ≠ Category.list.name := by
  cases h
  simp [standardTerm, Category.name]

theorem compileOptions_set_of_objects :
    ∃ record element, (standard 10).compileOptions (sizedTallies.inFormat Vocabulary.object "set") =
        .ok record ∧
      record.marks.set = true ∧ record.child = some element ∧
      (standard 10).compileOptions (sizedTallies.inFormat Vocabulary.object scalarFormat) =
        .ok element := by
  have h := compileOptions_container_iff (o := sizedTallies) standard_holdsContainers (by decide)
    (.inr rfl) object_not_list
  obtain ⟨record, hrecord⟩ : ∃ record,
      (standard 10).compileOptions (sizedTallies.inFormat Vocabulary.object "set") = .ok record :=
    ⟨_, rfl⟩
  obtain ⟨-, hset, -, -, element, hchild, helement⟩ := h.2 record hrecord
  exact ⟨record, element, hrecord, hset.mpr rfl, hchild, helement⟩

/-- The size that options ask for is that of the list or the set, in order, whatever its elements
are unless they are of the object type itself: no options are laid over that, and its lists have
no size. -/
theorem compileOptions_size (hr : r.HoldsContainers) (hdepth : 2 ≤ r.maxDepth)
    (hformat : format = "list" ∨ format = "set") (htypes : r.resolve type = .ok types)
    (hlists : ∀ t ∈ types, t.category ≠ Category.list.name) {plain : Record Number}
    (hplain : compile types = .ok plain) {size : Interval Number}
    (hsize : o.constraints.size = some size) :
    (isObject types = false → ∃ record, r.compileOptions (o.inFormat type format) = .ok record ∧
      record.category = some .list ∧ record.size = some size.normalize) ∧
    (isObject types = true → ∀ record, r.compileOptions (o.inFormat type format) = .ok record →
      record.category = some .list ∧ record.size = none) := by
  obtain ⟨key, hkey⟩ := exists_container hformat
  rw [compileOptions_inFormat hr hdepth hkey htypes hlists]
  constructor
  · intro hobject
    obtain ⟨element, helement⟩ :=
      Record.ofHierarchy_inject_ok o.constraints (mapError_eq_ok_iff.mp hplain)
    have hscalar : r.compileOptions (o.inFormat type scalarFormat) = .ok element := by
      rw [compileOptions_scalar htypes, elementHierarchy, hobject]
      exact mapError_eq_ok_iff.mpr helement
    have hlevel := containerLevel_size o.constraints format
    rw [hsize, ← laidOver_other hobject] at hlevel
    exact ⟨_, map_eq_ok_iff.mpr ⟨element, hscalar, rfl⟩, rfl, hlevel⟩
  · intro hobject record hrecord
    obtain ⟨element, -, rfl⟩ := map_eq_ok_iff.mp hrecord
    rw [laidOver_object hobject]
    exact ⟨rfl, containerLevel_size {} format⟩

theorem compileOptions_size_of_hexadecimals :
    ∃ record, (standard 10).compileOptions (sizedTallies.inFormat Vocabulary.hex "list") =
        .ok record ∧
      record.size = some ⟨.int 1, .int 5, false, true⟩ := by
  have hlists : ∀ types, (standard 10).resolve Vocabulary.hex = .ok types →
      ∀ t ∈ types, t.category ≠ Category.list.name := by
    intro types h
    cases h
    simp [standardTerm, Category.name]
  obtain ⟨types, plain, htypes, hplain, hobject⟩ : ∃ types plain,
      (standard 10).resolve Vocabulary.hex = .ok types ∧ compile types = .ok plain ∧
        isObject types = false := ⟨_, _, rfl, rfl, rfl⟩
  obtain ⟨record, hrecord, -, hsize⟩ := (compileOptions_size (o := sizedTallies)
    standard_holdsContainers (by decide) (.inl rfl) htypes (hlists types htypes) hplain rfl).1
    hobject
  exact ⟨record, hrecord, hsize⟩

/-- A list of objects has no size although one was asked for. -/
theorem compileOptions_objects_without_size :
    ∃ types plain record, (standard 10).HoldsContainers ∧
      (standard 10).resolve Vocabulary.object = .ok types ∧
      (∀ t ∈ types, t.category ≠ Category.list.name) ∧ compile types = .ok plain ∧
      (standard 10).compileOptions (sizedTallies.inFormat Vocabulary.object "list") = .ok record ∧
      record.size ≠ sizedTallies.constraints.size.map Interval.normalize :=
  ⟨_, _, _, standard_holdsContainers, rfl, object_not_list _ rfl, rfl, rfl, nofun⟩

end Registry

end TermRules
