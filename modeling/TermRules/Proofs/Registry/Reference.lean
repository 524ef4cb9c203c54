import TermRules.Proofs.Registry.Override

/-!
What references point to. Each field of the target is what the most specific term that sets it says,
and options speak for the most general reference key of the chain: they stand in for it and for
whatever is behind it, and what is in front of it still comes first.
-/

namespace TermRules

namespace Target

/-- The fields of a target. -/
inductive Field where
  | collection
  | instanceName
  | terms
  | fields
  deriving DecidableEq, Repr

/-- What a field holds. -/
def Field.Content : Field → Type
  | .collection | .instanceName => String
  | .terms | .fields => List String

def get (t : Target) : (field : Field) → Option field.Content
  | .collection => t.collection
  | .instanceName => t.instanceName
  | .terms => t.terms
  | .fields => t.fields

private theorem get_overlay (below above : Target) (field : Field) :
    (below.overlay above).get field = (above.get field).or (below.get field) := by
  cases field <;> rfl

end Target

private theorem Axis.reference_governs_get (field : Target.Field) :
    Axis.reference.Governs fun c => c.target.get field := by
  intro b c t
  cases b with
  | scalar | list => rfl
  | reference => exact Target.get_overlay t.constraints.target c.target field

namespace Hierarchy

variable {h specific general : Hierarchy} {base : Term} {c : Constraints} {field : Target.Field}

/-- What the most specific term that sets the field sets it to. -/
def target (h : Hierarchy) (field : Target.Field) : Option field.Content :=
  h.findSome? fun t => t.constraints.target.get field

private theorem target_append (h h' : Hierarchy) (field : Target.Field) :
    target (h ++ h') field = (target h field).or (target h' field) :=
  List.findSome?_append

private theorem target_cons (t : Term) (h : Hierarchy) (field : Target.Field) :
    target (t :: h) field = (t.constraints.target.get field).or (target h field) := by
  rw [target, List.findSome?_cons]
  cases t.constraints.target.get field <;> rfl

private theorem target_eq (h : Hierarchy) (field : Target.Field) :
    h.target field = (h.map fun t => t.constraints.target.get field).findSome? id := by
  rw [List.findSome?_map]
  rfl

/-- Options come behind the terms in front of the last reference key and before that key itself. -/
theorem target_inject (hbase : Vocabulary.isReference base.key = true)
    (hgeneral : general.any Axis.reference.selects = false) :
    target (inject c (specific ++ base :: general)) field =
      (target specific field).or ((c.target.get field).or (target (base :: general) field)) := by
  have hmap :
      (inject c (specific ++ base :: general)).map (fun t => t.constraints.target.get field) =
      specific.map (fun t => t.constraints.target.get field) ++
        (c.target.get field).or (base.constraints.target.get field) ::
          general.map fun t => t.constraints.target.get field :=
    map_inject_of_last (Axis.reference_governs_get field) hbase hgeneral
  rw [target_eq, hmap, List.findSome?_append, ← target_eq, List.findSome?_cons,
    ← target_eq, target_cons]
  cases c.target.get field <;> cases base.constraints.target.get field <;> rfl

end Hierarchy

namespace Record

private theorem ofRun_target (h : Hierarchy) (field : Target.Field) :
    (ofRun .text h.reverse).target.get field = h.target field := by
  cases field <;> exact congrArg _ (List.reverse_reverse h)

/-- A reference key among the terms makes the record one of references. -/
theorem ofRun_reference {h : Hierarchy} (href : h.any Axis.reference.selects = true) :
    (ofRun .text h.reverse).marks.reference = true := by
  obtain ⟨t, ht, hkey⟩ := List.any_eq_true.mp href
  refine List.any_eq_true.mpr ⟨t, List.mem_reverse.mpr ht, ?_⟩
  rw [show Vocabulary.isReference t.key = true from hkey, Bool.true_or]

end Record

namespace Registry

variable {r : Registry} {o : Options} {type : String} {types : Hierarchy}

/-- A descriptor in scalar format of a type of texts with a reference key among them is one of
references. What its options leave open stands as in the type. What they set counts as long as no
term in front of the last reference key sets it. The object type, if it has been replaced by such a
type, takes no options. -/
theorem compileOptions_reference (htypes : r.resolve type = .ok types)
    (htext : ∀ t ∈ types, t.category = Category.text.name)
    (href : ∃ t ∈ types, Vocabulary.isReference t.key = true) :
    (isObject types = false →
      ∃ (specific general : Hierarchy) (base : Term) (record : Record Number),
      types = specific ++ base :: general ∧ Vocabulary.isReference base.key = true ∧
      (∀ t ∈ general, Vocabulary.isReference t.key = false) ∧
      r.compileOptions (o.inFormat type scalarFormat) = .ok record ∧ record.marks.reference = true ∧
      ∀ field, (o.constraints.target.get field = none →
        record.target.get field = types.target field) ∧
        ∀ x, o.constraints.target.get field = some x → specific.target field = none →
          record.target.get field = some x) ∧
    (isObject types = true → ∀ record,
      r.compileOptions (o.inFormat type scalarFormat) = .ok record →
      record.marks.reference = true ∧ ∀ field, record.target.get field = types.target field) := by
  have hany : types.any Axis.reference.selects = true := List.any_eq_true.mpr href
  have hne := ne_nil_of_resolve htypes
  obtain ⟨hother, hobject⟩ := compileOptions_of_category (o := o.inFormat type scalarFormat)
    (c := .text) nofun htypes htext rfl rfl
  constructor
  · intro hflag
    have hrecord :=
      compile_of_category (c := .text) nofun (Hierarchy.inject_ne_nil hne o.constraints)
      (Hierarchy.category_of_inject htext o.constraints)
    have hinject : (types.inject o.constraints).any Axis.reference.selects = true :=
      (Hierarchy.any_selects_of_retunes (Hierarchy.retunes_inject o.constraints types)
        .reference).trans hany
    obtain ⟨specific, base, general, rfl, hbase, hgeneral⟩ := Hierarchy.exists_last_of_any hany
    refine ⟨specific, general, base, _, rfl, hbase, by simpa [Axis.selects] using hgeneral,
      (hother hflag).trans hrecord, Record.ofRun_reference hinject, fun field => ?_⟩
    rw [Record.ofRun_target, Hierarchy.target_inject hbase hgeneral]
    refine ⟨fun hunset => ?_, fun x hset hfront => ?_⟩
    · rw [hunset, Option.none_or, ← Hierarchy.target_append]
    · rw [hset, hfront]
      rfl
  · intro hflag record hrecord
    have hplain := (hobject hflag record hrecord).symm.trans
      (compile_of_category (c := .text) nofun hne htext)
    obtain rfl := Except.ok.inj hplain
    exact ⟨Record.ofRun_reference hany, Record.ofRun_target types⟩

/-- Countries, which are references into a collection of their own. -/
def country : Term where
  id := "terms/country"
  key := "country"
  category := Category.text.name
  parent := some Vocabulary.reference
  constraints := { target := { collection := some "countries" } }

def withCountries : Registry := (standard 10).add country

def countryChain : Hierarchy :=
  [country, standardTerm Vocabulary.reference .text Vocabulary.text,
    standardTerm Vocabulary.text .text Vocabulary.root ["castString"]]

/-- References to the records of an instance. -/
def inEurope : Options := { constraints := { target := { instanceName := some "europe" } } }

/-- References into the collection of towns. -/
def intoTowns : Options := { constraints := { target := { collection := some "towns" } } }

private theorem withCountries_resolve : withCountries.resolve "country" = .ok countryChain := rfl

private theorem countryChain_text : ∀ t ∈ countryChain, t.category = Category.text.name := by
  decide

theorem compileOptions_country_in_europe :
    ∃ record, withCountries.compileOptions (inEurope.inFormat "country" scalarFormat) = .ok record ∧
      record.marks.reference = true ∧ record.target.collection = some "countries" ∧
      record.target.instanceName = some "europe" := by
  obtain ⟨specific, general, base, record, hchain, -, -, hrecord, href, hfield⟩ :=
    (compileOptions_reference (o := inEurope) withCountries_resolve countryChain_text (by decide)).1
      rfl
  have hfront : Hierarchy.target specific .instanceName = none := by
    have hnone : Hierarchy.target countryChain .instanceName = none := rfl
    rw [hchain, Hierarchy.target_append, Option.or_eq_none_iff] at hnone
    exact hnone.1
  exact ⟨record, hrecord, href, (hfield .collection).1 rfl,
    (hfield .instanceName).2 "europe" rfl hfront⟩

/-- The standard registry with references in place of objects. -/
def withReferencesForObjects : Registry :=
  (standard 10).add (standardTerm Vocabulary.object .text Vocabulary.reference)

/-- Countries stay countries, and references in place of objects take no collection. -/
theorem compileOptions_without_towns :
    (∃ types record, withCountries.resolve "country" = .ok types ∧
      (∀ t ∈ types, t.category = Category.text.name) ∧
      (∃ t ∈ types, Vocabulary.isReference t.key = true) ∧
      withCountries.compileOptions (intoTowns.inFormat "country" scalarFormat) = .ok record ∧
      record.target.collection = some "countries") ∧
    ∃ types record, withReferencesForObjects.resolve Vocabulary.object = .ok types ∧
      (∀ t ∈ types, t.category = Category.text.name) ∧
      (∃ t ∈ types, Vocabulary.isReference t.key = true) ∧
      withReferencesForObjects.compileOptions (intoTowns.inFormat Vocabulary.object scalarFormat) =
        .ok record ∧
      record.target.collection = none :=
  ⟨⟨_, _, rfl, by decide, by decide, rfl, rfl⟩, ⟨_, _, rfl, by decide, by decide, rfl, rfl⟩⟩

end Registry

end TermRules
