import TermRules.Program
import TermRules.Proofs.Registry.Plain

/-!
The rules of descriptors over the standard taxonomy. A descriptor in scalar format has the rule of
its type. One in a container format has a rule for lists, with that of its type for the items unless
the type is one of lists itself. What such a rule has let pass it lets pass again, sets apart: there
the items may have become equal.
-/

namespace TermRules

/-- The hierarchy of a type that is no container. -/
def Hierarchy.IsElement (h : Hierarchy) : Prop :=
  (∃ c, Hierarchy.IsPlain c h) ∨ ∃ t, h = [t] ∧ t.HasPlainAxes

namespace Registry

variable {r : Registry} {maxDepth : Int} {adjust : Bool} {o : Options} {rule : Rule}
  {h : Hierarchy}

/-- The rule of a descriptor that has been read. -/
def ruleOf (r : Registry) (adjust : Bool) (o : Options) : Except Failure Rule := do
  (← r.compileOptions o).rule adjust

private theorem compileDescriptor_of_read [Readable Options] {v : Value}
    (h : readDescriptor v = .ok o) : r.compileDescriptor v = Batch.one <$> r.compileOptions o := by
  cases v with
  | list items => contradiction
  | scalar _ | mapping _ =>
      simp only [compileDescriptor, h]
      change (do return Batch.one (← r.compileOptions o)) = _
      generalize r.compileOptions o = compiled
      cases compiled <;> rfl

/-- A written descriptor that is no list has this rule and no other. -/
theorem rules_of_descriptor [Readable Options] {v : Value} (h : readDescriptor v = .ok o) :
    (do (← r.compileDescriptor v).rules adjust) = Batch.one <$> r.ruleOf adjust o := by
  rw [compileDescriptor_of_read h, ruleOf]
  cases r.compileOptions o with
  | error f => rfl
  | ok record =>
      have hrules : (Batch.one record).rules adjust =
          Batch.one <$> (liftM (record.rule adjust) : Except Failure Rule) := by
        rw [Batch.rules]
        cases record.rule adjust <;> rfl
      exact hrules

section Hierarchies

theorem containerOf_eq_some {type key : String} {format : Option String}
    (h : containerOf type format = .ok (some key)) :
    ∃ f, format = some f ∧ containers.lookup f = some key := by
  simp only [containerOf] at h
  split at h
  · simp at h
  · rename_i hempty
    cases format with
    | none => simp at hempty
    | some f =>
        rw [Option.getD_some] at h
        split at h
        · simp at h
        · split at h
          · rename_i found hlookup
            cases h
            exact ⟨f, rfl, hlookup⟩
          · simp at h

private theorem ne_set_of_containerOf {type : String} {format : Option String}
    (h : containerOf type format = .ok none) : format ≠ some "set" := by
  rintro rfl
  have hset : containerOf type (some "set") = .ok (some Vocabulary.set) := rfl
  simp [hset] at h

private theorem isPlain_of_axisOf {part : Option Options} {axis : Option Hierarchy}
    (h : (standard maxDepth).axisOf part = .ok axis) {terms : Hierarchy}
    (hterms : axis = some terms) : ∃ c, Hierarchy.IsPlain c terms := by
  subst hterms
  cases part with
  | none => simp [axisOf] at h
  | some p =>
      simp only [axisOf] at h
      split at h
      · simp at h
      · obtain ⟨chain, hchain, h⟩ := bind_eq_ok_iff.mp h
        cases pure_eq_ok_iff.mp h
        obtain ⟨c, hplain⟩ := isPlain_of_resolve hchain
        exact ⟨c, hplain.retunes (Hierarchy.retunes_inject _ _)⟩

private theorem hasPlainAxes_of_withAxes {t : Term} (ht : t.RunsStandard .object)
    (h' : (standard maxDepth).withAxes o [t] = .ok h) : ∃ u, h = [u] ∧ u.HasPlainAxes := by
  obtain ⟨keys, hkeys, h'⟩ := bind_eq_ok_iff.mp h'
  obtain ⟨values, hvalues, h'⟩ := bind_eq_ok_iff.mp h'
  obtain rfl := pure_eq_ok_iff.mp h'
  refine ⟨_, rfl, ⟨ht.category, ht.casts, ht.customs, ht.hexadecimal⟩, fun axis haxis => ?_⟩
  rcases haxis with haxis | haxis
  · exact isPlain_of_axisOf hkeys haxis
  · exact isPlain_of_axisOf hvalues haxis

theorem descriptorHierarchy_eq_ok (hd : r.descriptorHierarchy o = .ok h) :
    ∃ type container types inner outer, o.type = some type ∧
      containerOf type o.format = .ok container ∧ r.resolve type = .ok types ∧
      (if isObject types then r.withAxes o types else .ok types) = .ok inner ∧
      container.elim (.ok []) r.resolve = .ok outer ∧
      h = if isObject types then inner ++ outer else (inner ++ outer).inject o.constraints := by
  simp only [descriptorHierarchy] at hd
  split at hd
  · contradiction
  rename_i type htype
  obtain ⟨container, hcontainer, hd⟩ := bind_eq_ok_iff.mp hd
  obtain ⟨types, htypes, hd⟩ := bind_eq_ok_iff.mp hd
  refine ⟨type, container, types, ?_⟩
  cases hflag : isObject types with
  | true | false =>
      simp only [hflag, Bool.false_eq_true, if_true, if_false] at hd
      obtain ⟨inner, hinner, hd⟩ := bind_eq_ok_iff.mp hd
      cases container with
      | none | some key =>
          obtain ⟨outer, houter, hd⟩ := bind_eq_ok_iff.mp hd
          exact ⟨inner, outer, htype, hcontainer, htypes, hinner, houter,
            (pure_eq_ok_iff.mp hd).symm⟩

/-- The hierarchy of a descriptor: that of an element, under a container unless the format is
scalar. -/
theorem descriptorHierarchy_standard (hd : (standard maxDepth).descriptorHierarchy o = .ok h) :
    ∃ inner outer, h = inner ++ outer ∧ Hierarchy.IsElement inner ∧
      (outer = [] ∧ o.format ≠ some "set" ∨ Hierarchy.IsPlain .list outer ∧
        ((∃ u ∈ outer, u.key = Vocabulary.set) ↔ o.format = some "set")) := by
  obtain ⟨type, container, types, inner, outer, -, hcontainer, htypes, hinner, houter, rfl⟩ :=
    descriptorHierarchy_eq_ok hd
  obtain ⟨c, hplain⟩ := isPlain_of_resolve htypes
  have hobject := isObject_of_resolve htypes hplain
  have hcontainers : outer = [] ∧ o.format ≠ some "set" ∨ Hierarchy.IsPlain .list outer ∧
      ((∃ u ∈ outer, u.key = Vocabulary.set) ↔ o.format = some "set") := by
    cases container with
    | none => exact .inl ⟨(Except.ok.inj houter).symm, ne_set_of_containerOf hcontainer⟩
    | some key =>
        rw [Option.elim_some] at houter
        obtain ⟨f, hf, hkey⟩ := containerOf_eq_some hcontainer
        obtain ⟨hlist, hset⟩ := isPlain_of_container hkey houter
        exact .inr ⟨hlist, by rw [hset, hf, Option.some.injEq]⟩
  cases hflag : isObject types with
  | true =>
      rw [if_pos hflag] at hinner
      obtain ⟨rfl, t, rfl⟩ := hobject.mp hflag
      exact ⟨inner, outer, rfl,
        .inr (hasPlainAxes_of_withAxes (hplain.runs t (by simp)) hinner), hcontainers⟩
  | false =>
      rw [if_neg (by simp [hflag])] at hinner
      obtain rfl := Except.ok.inj hinner
      obtain ⟨inner', outer', heq, hinner', houter'⟩ :=
        Hierarchy.inject_append o.constraints types outer
      refine ⟨inner', outer', heq, .inl ⟨c, hplain.retunes hinner'⟩, ?_⟩
      rcases hcontainers with ⟨rfl, hformat⟩ | ⟨hlist, hset⟩
      · exact .inl ⟨List.forall₂_nil_left_iff.mp houter', hformat⟩
      · have hkeys : (∃ u ∈ outer', u.key = Vocabulary.set) ↔
            ∃ u ∈ outer, u.key = Vocabulary.set := by
          rw [← List.mem_map, ← List.mem_map, Hierarchy.keys_of_retunes houter']
        exact .inr ⟨hlist.retunes houter', hkeys.trans hset⟩

end Hierarchies

theorem ruleOf_eq_ok (hrule : r.ruleOf adjust o = .ok rule) :
    ∃ h record, r.descriptorHierarchy o = .ok h ∧ Record.ofHierarchy h = .ok record ∧
      record.rule adjust = .ok rule := by
  obtain ⟨record, hrecord, hrule⟩ := bind_eq_ok_iff.mp hrule
  obtain ⟨h, hh, hrecord⟩ := bind_eq_ok_iff.mp hrecord
  exact ⟨h, record, hh, mapError_eq_ok_iff.mp hrecord, liftM_eq_ok_iff.mp hrule⟩

end Registry

/-- An element is a run of its own, and the record of the run has the rule of an element. -/
theorem Hierarchy.IsElement.exists_run [Library] {h : Hierarchy} (helement : Hierarchy.IsElement h)
    (haxes : ∀ t ∈ h, ∃ c axes, Record.axesOf t = .ok (c, axes)) :
    ∃ c, h ≠ [] ∧ (∀ t ∈ h, t.category = c.name) ∧ (c = .list → IsPlain .list h) ∧
      ∀ adjust rule, (Record.ofRun c h.reverse).rule adjust = .ok rule →
        rule.IsElement adjust := by
  rcases helement with ⟨c, hplain⟩ | ⟨t, rfl, ht⟩
  · exact ⟨c, hplain.nonempty, hplain.category, fun hc => hc ▸ hplain,
      fun adjust rule => hplain.isElement⟩
  · obtain ⟨c, axes, haxes⟩ := haxes t (by simp)
    exact ⟨.object, by simp, by simpa using ht.runs.category, nofun,
      fun adjust rule hrule => ht.isElement haxes hrule⟩

namespace Registry

variable {maxDepth : Int} {adjust : Bool} {o : Options} {rule : Rule}

/-- The rule of a descriptor is that of an element, or one for lists: of elements, or of
anything. -/
theorem ruleOf_forms [Library] (hrule : (standard maxDepth).ruleOf adjust o = .ok rule) :
    rule.IsElement adjust ∧ o.format ≠ some "set" ∨
      rule.IsListing ∧ (o.format = some "set" → ⟨.unique, .null⟩ ∈ rule.directives) ∧
        (rule.IsFlat ∨ (⟨.unique, .null⟩ ∈ rule.directives → o.format = some "set") ∧
          ∀ s, rule.items = some s → s.IsElement adjust) := by
  obtain ⟨h, record, hh, hrecord, hrule⟩ := ruleOf_eq_ok hrule
  obtain ⟨inner, outer, rfl, helement, hcontainer⟩ := descriptorHierarchy_standard hh
  obtain ⟨ls, hlevels, -⟩ := Record.ofHierarchy_eq_ok_iff.mp hrecord
  have haxes := Record.axesOf_of_levels_ok hlevels
  obtain ⟨c, hne, hcategory, hlist, hrules⟩ :=
    helement.exists_run fun t ht => haxes t (List.mem_append_left outer ht)
  rcases hcontainer with ⟨rfl, hformat⟩ | ⟨houter, hset⟩
  · rw [List.append_nil] at hrecord
    obtain rfl := Record.eq_ofRun_of_category hrecord hne hcategory
    exact .inl ⟨hrules adjust rule hrule, hformat⟩
  · by_cases hc : c = .list
    · -- The container is of the same category: there is one level, and no rule for the items.
      have hplain := (hlist hc).append houter
      obtain rfl := hplain.eq_ofRun hrecord
      have hsame : Record.rule adjust
          { Record.ofRun .list (inner ++ outer).reverse with child := none } = .ok rule := hrule
      obtain ⟨hlisting, hunique⟩ := hplain.isListing hsame
      refine .inr ⟨hlisting, fun hformat => hunique.mpr ?_, .inl (hplain.flat hrule)⟩
      obtain ⟨u, hu, hkey⟩ := hset.mpr hformat
      exact ⟨u, List.mem_append_right inner hu, hkey⟩
    · obtain rfl := Record.eq_container_of_category hrecord hne hcategory houter.nonempty
        houter.category hc
      obtain ⟨hlisting, hunique⟩ := houter.isListing hrule
      rw [hset] at hunique
      refine .inr ⟨hlisting, hunique.mpr, .inr ⟨hunique.mp, fun s hs => ?_⟩⟩
      obtain ⟨child, hchild, hs⟩ :=
        Record.exists_of_partRule (hs ▸ (Record.renders_of_rule hrule).items)
      obtain rfl := Option.some.inj hchild
      exact hrules adjust s hs

/-- Unless it is in set format, what the rule of a descriptor has let pass it lets pass again and
unchanged. -/
theorem check_check_of_descriptor [Library] (hrule : (standard maxDepth).ruleOf adjust o = .ok rule)
    (hformat : o.format ≠ some "set") {v w : Value} {path : String} (hv : v.OnGrid)
    (h : rule.check .standard v path = .ok w) : rule.check .standard w path = .ok w := by
  rcases ruleOf_forms hrule with ⟨helement, -⟩ | ⟨hlisting, -, hflat | ⟨hunique, hitems⟩⟩
  · exact helement.settles v w path hv h
  · exact hlisting.hookless.settles hflat v w path hv h
  · exact hlisting.settles (fun hmem => hformat (hunique hmem))
      (fun s hs => (hitems s hs).settles) v w path hv h

/-- Objects with hexadecimal keys and whole numbers for values. -/
def tallies : Options where
  type := some Vocabulary.object
  key := some { type := some Vocabulary.hex }
  value := some { type := some Vocabulary.integer }

section Program

open Program

theorem check_check_tallies :
    ∃ rule w, (standard 10).ruleOf true tallies = .ok rule ∧
      rule.check .standard (.mapping [(.text "AB", .double (.finite 3))]) "" = .ok w ∧
      w = .mapping [(.text "ab", .int 3)] ∧ rule.check .standard w "" = .ok w := by
  have hgrid : (Value.mapping [(.text "AB", .double (.finite 3))]).OnGrid := by
    refine .mapping ?_ ?_
    · simp only [List.forall_mem_singleton]
      exact .scalar nofun
    · simp only [List.forall_mem_singleton]
      refine .scalar fun d hd => ?_
      cases hd
      rintro q hq
      cases hq
      exact ⟨3, by decide +kernel⟩
  obtain ⟨rule, hrule, hcheck⟩ : ∃ rule, (standard 10).ruleOf true tallies = .ok rule ∧
      rule.check .standard (.mapping [(.text "AB", .double (.finite 3))]) "" =
        .ok (.mapping [(.text "ab", .int 3)]) := ⟨_, rfl, rfl⟩
  exact ⟨rule, _, hrule, hcheck, rfl, check_check_of_descriptor hrule (by decide) hgrid hcheck⟩

end Program

end Registry

end TermRules
