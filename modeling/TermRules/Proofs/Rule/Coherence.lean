import TermRules.Proofs.Rule.Nesting

/-!
The directives that the rules of hierarchies have. They are all for values of the kind of the rule,
none but patterns stands there twice, and no two of them exclude each other. To see this it is
enough to look at the names: those of a run are among few lists of names, which can be gone through.
-/

namespace TermRules

namespace DirectiveName

/-- The kind of the values that a directive is about. Values of any kind can be required. -/
def kind? : DirectiveName → Option Kind
  | .required => none
  | .exactLength
  | .minLength | .maxLength | .pattern | .address | .hexadecimal | .email => some .string
  | .exact | .min | .max | .greater | .less | .precision | .integer | .timestamp => some .number
  | .exactSize | .minSize | .maxSize | .unique => some .array

/-- Directives that are not to stand beside each other: an exact bound and any other, two bounds for
one end, a strict bound and the demand for whole numbers. -/
def excludes : DirectiveName → DirectiveName → Bool
  | .exactLength, .minLength | .exactLength, .maxLength => true
  | .exact, .min | .exact, .max | .exact, .greater | .exact, .less => true
  | .exactSize, .minSize | .exactSize, .maxSize => true
  | .min, .greater | .max, .less => true
  | .greater, .integer | .less, .integer => true
  | _, _ => false

/-- The names are for values of the kind, each stands there once, and none excludes another. -/
def Orderly (k : Kind) (names : List DirectiveName) : Prop :=
  names.Nodup ∧ (∀ a ∈ names, a.kind? = some k) ∧ ∀ a ∈ names, ∀ b ∈ names, a.excludes b = false

instance (k : Kind) (names : List DirectiveName) : Decidable (Orderly k names) :=
  inferInstanceAs (Decidable (_ ∧ _ ∧ _))

private theorem Orderly.sublist {k : Kind} {names more : List DirectiveName} (h : Orderly k more)
    (hsublist : names.Sublist more) : Orderly k names :=
  ⟨h.1.sublist hsublist, fun a ha => h.2.1 a (hsublist.subset ha),
    fun a ha b hb => h.2.2 a (hsublist.subset ha) b (hsublist.subset hb)⟩

end DirectiveName

/-- The limit of a directive is one for its name: a number for a bound, a whole number for the
precision, a text for a pattern, and none for the others. -/
def Directive.IsLimited (d : Directive) : Prop :=
  if d.name.relation?.isSome then ∃ x : Number, d.value = .ofNumber x
  else match d.name with
    | .precision => ∃ n : Int, d.value = .int n
    | .pattern => ∃ p, d.value = .text p
    | _ => d.value = .null

/-- The directives of a rule suit its kind and one another. Patterns may be many. -/
structure Rule.IsCoherent (r : Rule) : Prop where
  kinds : ∀ d ∈ r.directives, d.name.kind? = some r.kind
  limits : ∀ d ∈ r.directives, d.IsLimited
  once : ((r.directives.map Directive.name).filter (· != .pattern)).Nodup
  compatible : ∀ d ∈ r.directives, ∀ e ∈ r.directives, d.name.excludes e.name = false

namespace BoundNames

variable {names : BoundNames} {t : List DirectiveName}

/-- The names of the bounds that an interval can have. -/
def choices (names : BoundNames) : List (List DirectiveName) :=
  let strict := names.strict.getD (names.lower, names.upper)
  [[names.point], [names.lower, names.upper], [strict.1, names.upper], [names.lower, strict.2],
    [strict.1, strict.2]]

private theorem Lawful.relation_of_mem_choices (law : names.Lawful) (ht : t ∈ names.choices) :
    ∀ a ∈ t, a.relation?.isSome = true := by
  have hstrict : (names.strict.getD (names.lower, names.upper)).1.relation?.isSome = true ∧
      (names.strict.getD (names.lower, names.upper)).2.relation?.isSome = true := by
    cases hs : names.strict with
    | none => simp [law.lower, law.upper]
    | some s => simp [law.strict s hs]
  simp only [choices, List.mem_cons, List.not_mem_nil, or_false] at ht
  rcases ht with rfl | rfl | rfl | rfl | rfl <;> simp [law.point, law.lower, law.upper, hstrict]

end BoundNames

namespace Interval

variable {names : BoundNames} {adjust : Bool} {i : Interval Number} {ds : List Directive}

private theorem endDirective_names {inclusive strict : DirectiveName} {isStrict : Bool} {step : Int}
    {bound : Number} {isIncluded : Bool}
    (h : endDirective inclusive strict isStrict step bound isIncluded = .ok ds) :
    (∀ d ∈ ds, ∃ x : Number, d.value = .ofNumber x) ∧
      ((ds.map Directive.name).Sublist [inclusive] ∨ (ds.map Directive.name).Sublist [strict]) := by
  obtain ⟨infinite, -, rfl⟩ := endDirective_ok h
  cases infinite <;> cases isIncluded <;> cases isStrict <;> simp

theorem directives_names (h : i.directives names adjust = .ok ds) :
    (∀ d ∈ ds, ∃ x : Number, d.value = .ofNumber x) ∧
      ∃ t ∈ names.choices, (ds.map Directive.name).Sublist t := by
  rw [directives] at h
  split at h
  · cases h
    exact ⟨by simp [Bound.toValue], [names.point], by simp [BoundNames.choices], .refl _⟩
  · obtain ⟨low, hlow, h⟩ := bind_eq_ok_iff.mp h
    obtain ⟨high, hhigh, h⟩ := bind_eq_ok_iff.mp h
    obtain rfl := pure_eq_ok_iff.mp h
    obtain ⟨hlowValues, hlowNames⟩ := endDirective_names hlow
    obtain ⟨hhighValues, hhighNames⟩ := endDirective_names hhigh
    refine ⟨List.forall_mem_append.mpr ⟨hlowValues, hhighValues⟩, ?_⟩
    rw [List.map_append]
    rcases hlowNames with hl | hl <;> rcases hhighNames with hh | hh <;>
      exact ⟨_, by simp [BoundNames.choices], hl.append hh⟩

end Interval

namespace Record

variable {c : Category} {run : List Term} {adjust : Bool} {ds : List Directive} {r : Record Number}
  {rule s : Rule} {h : Hierarchy}

private theorem boundsOf_names {names : BoundNames} {i : Option (Interval Number)}
    (h : boundsOf names adjust i = .ok ds) :
    (∀ d ∈ ds, ∃ x : Number, d.value = .ofNumber x) ∧
      ∃ t ∈ names.choices, (ds.map Directive.name).Sublist t := by
  cases i with
  | none =>
      cases h
      exact ⟨by simp, [names.point], by simp [BoundNames.choices], List.nil_sublist _⟩
  | some i => exact Interval.directives_names h

/-- The names that the marks of a run can have. -/
def markNames (c : Category) (run : List Term) : List DirectiveName :=
  match c with
  | .text => [.address, .hexadecimal, .email]
  | .numeric => if hasKey Vocabulary.integer run then [.integer, .timestamp] else [.timestamp]
  | .list => [.unique]
  | .any | .boolean | .struct | .object => []

/-- The names that the demands of a run can have, bounds and patterns apart. -/
def demandNames (c : Category) (run : List Term) : List DirectiveName :=
  (if c = .numeric then [.precision] else []) ++ markNames c run

private theorem orderly_of_mem_choices (hc : c.IsMeasured) (run : List Term) :
    ∀ t ∈ (boundNames c run).choices, DirectiveName.Orderly c.kind (t ++ demandNames c run) := by
  rcases hc with rfl | rfl | rfl <;> simp only [boundNames, demandNames, markNames]
  · decide
  · split <;> decide
  · decide

private theorem marks_names (hc : c.IsMeasured) (run : List Term) :
    ((ofRun c run).marks.directives.map Directive.name).Sublist (markNames c run) := by
  rcases hc with rfl | rfl | rfl
  · simp only [ofRun, textOfRun, Marks.directives, markNames]
    cases hasKey Vocabulary.url run <;> cases hasKey Vocabulary.hex run <;>
      cases hasKey Vocabulary.email run <;> decide
  · simp only [ofRun, numericOfRun, Marks.directives, markNames]
    cases hasKey Vocabulary.integer run <;> cases hasKey Vocabulary.timestamp run <;> decide
  · simp only [ofRun, listOfRun, Marks.directives, markNames]
    cases hasKey Vocabulary.set run <;> decide

private theorem decimals_names (hc : c.IsMeasured) (run : List Term) :
    ((ofRun c run).decimals.map fun _ => DirectiveName.precision).toList.Sublist
      (if c = .numeric then [.precision] else []) := by
  rcases hc with rfl | rfl | rfl
  · exact List.nil_sublist _
  · cases (ofRun .numeric run).decimals <;> simp
  · exact List.nil_sublist _

private theorem marks_ne_pattern (m : Marks) : ∀ d ∈ m.directives, d.name ≠ .pattern :=
  (Marks.forall_directives_iff m _).mpr (by simp)

private theorem filter_demands (r : Record Number) :
    (r.demands.map Directive.name).filter (· != .pattern) =
      (r.decimals.map fun _ => DirectiveName.precision).toList ++
        r.marks.directives.map Directive.name := by
  have hkept : (r.marks.directives.map Directive.name).filter (· != .pattern) =
      r.marks.directives.map Directive.name :=
    List.filter_eq_self.mpr (by simpa using marks_ne_pattern r.marks)
  rw [demands, List.map_append, List.map_append, List.filter_append, List.filter_append, hkept]
  cases r.decimals <;> simp

/-- Patterns apart, the names of the directives of a run are for its category and agree with
each other. -/
theorem orderly_directives (hc : c.IsMeasured) (hds : (ofRun c run).directives adjust = .ok ds) :
    DirectiveName.Orderly c.kind ((ds.map Directive.name).filter (· != .pattern)) := by
  obtain ⟨bounds, hbounds, rfl⟩ := ofRun_directives_eq_ok hc hds
  obtain ⟨-, t, ht, hnames⟩ := boundsOf_names hbounds
  refine (orderly_of_mem_choices hc run t ht).sublist ?_
  rw [List.map_append, List.filter_append, filter_demands]
  exact (List.filter_sublist.trans hnames).append
    ((decimals_names hc run).append (marks_names hc run))

/-- A bound in the directives of a run has a number for its limit. -/
theorem exists_relation_of_bound {bounds : List Directive} {i : Option (Interval Number)}
    (h : boundsOf (boundNames c run) adjust i = .ok bounds) :
    ∀ d ∈ bounds, d.name.relation?.isSome = true ∧ ∃ x : Number, d.value = .ofNumber x := by
  obtain ⟨hvalues, t, ht, hnames⟩ := boundsOf_names h
  intro d hd
  exact ⟨(lawful_boundNames c run).relation_of_mem_choices ht d.name
    (hnames.subset (List.mem_map_of_mem hd)), hvalues d hd⟩

private theorem isLimited_of_mem_demands (r : Record Number) : ∀ d ∈ r.demands, d.IsLimited := by
  rw [demands, List.forall_mem_append, List.forall_mem_append, Marks.forall_directives_iff]
  refine ⟨⟨fun d hd => ?_, fun d hd => ?_⟩, ?_⟩
  · obtain ⟨n, -, rfl⟩ := Option.map_eq_some_iff.mp (Option.mem_toList.mp hd)
    exact ⟨n, rfl⟩
  · obtain ⟨p, -, rfl⟩ := List.mem_map.mp hd
    exact ⟨p, rfl⟩
  · exact ⟨fun _ => rfl, fun _ => rfl, fun _ => rfl, fun _ => rfl, fun _ => rfl, fun _ => rfl⟩

private theorem isLimited_directives (hc : c.IsMeasured)
    (hds : (ofRun c run).directives adjust = .ok ds) : ∀ d ∈ ds, d.IsLimited := by
  obtain ⟨bounds, hbounds, rfl⟩ := ofRun_directives_eq_ok hc hds
  refine List.forall_mem_append.mpr ⟨fun d hd => ?_, isLimited_of_mem_demands _⟩
  obtain ⟨hrelation, hvalue⟩ := exists_relation_of_bound hbounds d hd
  rw [Directive.IsLimited, if_pos hrelation]
  exact hvalue

/-- Only texts have patterns. -/
theorem category_of_pattern (hc : c.IsMeasured) (hds : (ofRun c run).directives adjust = .ok ds)
    {d : Directive} (hd : d ∈ ds) (hname : d.name = .pattern) : c = .text := by
  obtain ⟨bounds, hbounds, rfl⟩ := ofRun_directives_eq_ok hc hds
  simp only [demands, List.mem_append] at hd
  rcases hd with hd | (hd | hd) | hd
  · have hrelation := (exists_relation_of_bound hbounds d hd).1
    rw [hname] at hrelation
    contradiction
  · obtain ⟨n, -, rfl⟩ := Option.map_eq_some_iff.mp (Option.mem_toList.mp hd)
    contradiction
  · obtain ⟨p, hp, -⟩ := List.mem_map.mp hd
    rcases hc with rfl | rfl | rfl
    · rfl
    · contradiction
    · contradiction
  · exact absurd hname (marks_ne_pattern _ d hd)

private theorem isCoherent_of_measured (hc : c.IsMeasured)
    (hds : (ofRun c run).directives adjust = .ok rule.directives) (hkind : rule.kind = c.kind) :
    rule.IsCoherent := by
  obtain ⟨hnodup, hkinds, hcompatible⟩ := orderly_directives hc hds
  -- Patterns are not among the orderly names: they are of texts, and nothing excludes them.
  have hmem {d : Directive} (hd : d ∈ rule.directives) (hname : d.name ≠ .pattern) :
      d.name ∈ (rule.directives.map Directive.name).filter (· != .pattern) :=
    List.mem_filter.mpr ⟨List.mem_map_of_mem hd, by simpa using hname⟩
  refine ⟨fun d hd => ?_, isLimited_directives hc hds, hnodup, fun d hd e he => ?_⟩
  · rw [hkind]
    by_cases hname : d.name = .pattern
    · rw [hname, category_of_pattern hc hds hd hname]
      rfl
    · exact hkinds d.name (hmem hd hname)
  · by_cases hname : d.name = .pattern
    · rw [hname]
      rfl
    by_cases hname' : e.name = .pattern
    · rw [hname']
      cases d.name <;> rfl
    · exact hcompatible _ (hmem hd hname) _ (hmem he hname')

private theorem isCoherent_of_nil (hds : rule.directives = []) : rule.IsCoherent := by
  constructor <;> simp [hds]

/-- The directives of a run suit its category and one another. Only measured categories have any. -/
theorem isCoherent_of_run (hds : (ofRun c run).directives adjust = .ok rule.directives)
    (hkind : rule.kind = c.kind) : rule.IsCoherent := by
  cases c with
  | text => exact isCoherent_of_measured (.inl rfl) hds hkind
  | numeric => exact isCoherent_of_measured (.inr (.inl rfl)) hds hkind
  | list => exact isCoherent_of_measured (.inr (.inr rfl)) hds hkind
  | any | boolean | struct | object => exact isCoherent_of_nil (Except.ok.inj hds).symm

private theorem chain_cons_directives (q : Record Number) (rest : List (Record Number)) :
    (chain (q :: rest)).directives adjust = q.directives adjust := by
  cases rest <;> rfl

/-- Every rule in the tree of the rule of a hierarchy has directives that suit its kind and
one another. -/
theorem isCoherent_of_isWithin (hr : ofHierarchy h = .ok r) (hrule : r.rule adjust = .ok rule)
    (hs : s.IsWithin rule) : s.IsCoherent := by
  obtain ⟨q, hq, hqrule⟩ := exists_record_of_isWithin hrule hs
  have hrenders := renders_of_rule hqrule
  by_cases hne : h = []
  · subst hne
    obtain rfl := Except.ok.inj hr
    obtain rfl := eq_of_isWithin_empty hq
    exact isCoherent_of_nil (Except.ok.inj hrenders.directives).symm
  · obtain ⟨g, -, hlevel⟩ := (isWithin_iff hr hne).mp hq
    obtain ⟨run, rest, -, -, rfl⟩ := hlevel.exists_run
    refine isCoherent_of_run ((chain_cons_directives _ rest).symm.trans hrenders.directives) ?_
    rw [hrenders.kind, chain_cons_category]
    rfl

end Record

end TermRules
