import TermRules.Proofs.Registry.Substitution
import TermRules.Proofs.Rule.Parts
import TermRules.Proofs.Value.Entries

/-!
Rules that settle values: what such a rule has let pass, it lets pass again and unchanged. Rules of
texts and of numbers settle by what their hooks leave alone. Rules of lists and of objects settle if
the rules for their parts do, except that unique items are demanded before the items are checked.
-/

namespace TermRules

open Registry (standardCasts standardCustoms)

/-- Every double in the value is one that rounding makes, or is not finite. -/
inductive Value.OnGrid : Value → Prop
  | scalar {s : Scalar} (h : ∀ d, s = .double d → d.OnGrid) : OnGrid (.scalar s)
  | list {items : List Value} (h : ∀ v ∈ items, OnGrid v) : OnGrid (.list items)
  | mapping {es : Entries} (hkeys : ∀ e ∈ es, OnGrid (.scalar e.1))
      (hvalues : ∀ e ∈ es, OnGrid e.2) : OnGrid (.mapping es)

private theorem Value.OnGrid.double {v : Value} (h : v.OnGrid) : ∀ d, v = .double d → d.OnGrid := by
  rintro d rfl
  cases h with
  | scalar h => exact h d rfl

section Congruence

variable {x y : Number} {v w : Value} {path : String}

private theorem Value.below?_congr (h : x.point? = y.point?) (limit : Value) :
    (Value.ofNumber x).below? limit = (Value.ofNumber y).below? limit ∧
      limit.below? (.ofNumber x) = limit.below? (.ofNumber y) := by
  match limit with
  | .list _ | .mapping _ => cases x <;> cases y <;> simp [ofNumber, below?]
  | .scalar s =>
      cases x <;> cases y <;> cases s <;>
        simp_all [ofNumber, below?, Scalar.number?, Number.below]

private theorem Value.same_congr (h : x.point? = y.point?) (limit : Value) :
    (Value.ofNumber x).same limit = (Value.ofNumber y).same limit := by
  match limit with
  | .list _ | .mapping _ => cases x <;> cases y <;> simp [ofNumber, same]
  | .scalar s =>
      cases x <;> cases y <;> cases s <;>
        simp_all [ofNumber, same, Scalar.same, Scalar.number?, Number.same]

/-- Of a number a limit only sees the point. -/
theorem Relation.holds_congr (h : x.point? = y.point?) (r : Relation) (limit : Value) :
    r.holds (.ofNumber x) limit = r.holds (.ofNumber y) limit := by
  obtain ⟨hbelow, habove⟩ := Value.below?_congr h limit
  have hsame := Value.same_congr h limit
  cases r <;> simp only [holds, isBelow, hbelow, habove, hsame]

namespace Directive

variable {d : Directive} {r : Relation}

theorem check_eq_checkBound [Library] (hr : d.name.relation? = some r)
    (hcount : d.name.isCount = false) (v : Value) (path : String) :
    d.check v path = checkBound r d.value v path := by
  obtain ⟨name, limit⟩ := d
  cases name <;> simp_all [DirectiveName.relation?, DirectiveName.isCount, check]

private theorem check_eq_checkCount [Library] (hr : d.name.relation? = some r)
    (hcount : d.name.isCount = true) (v : Value) (path : String) :
    d.check v path = checkCount r d.value v path := by
  obtain ⟨name, limit⟩ := d
  cases name <;> simp_all [DirectiveName.relation?, DirectiveName.isCount, check]

private theorem check_of_point [Library] (hr : d.name.relation? = some r)
    (hcount : d.name.isCount = false) (hpoint : y.point? = x.point?)
    (h : d.check (.ofNumber x) path = .ok ()) : d.check (.ofNumber y) path = .ok () := by
  rw [check_eq_checkBound hr hcount, checkBound] at h ⊢
  simpa only [bind_eq_ok_iff, demand_eq_ok_iff, Relation.holds_congr hpoint] using h

private theorem check_of_count [Library] (hr : d.name.relation? = some r)
    (hcount : d.name.isCount = true) (hsize : w.count? = v.count?) (h : d.check v path = .ok ()) :
    d.check w path = .ok () := by
  rw [check_eq_checkCount hr hcount, checkCount] at h ⊢
  rw [hsize]
  split at h
  · contradiction
  · simpa only [bind_eq_ok_iff, demand_eq_ok_iff] using h

end Directive

end Congruence

/-- A bound on the quantity that the names are for. -/
def BoundNames.Bounds (names : BoundNames) (name : DirectiveName) : Prop :=
  (∃ r, name.relation? = some r) ∧ name.isCount = names.point.isCount

theorem Record.bounds_of_boundsOf {names : BoundNames} (law : names.Lawful) {adjust : Bool}
    {k : Option (Interval Number)} {ds : List Directive} (h : boundsOf names adjust k = .ok ds) :
    ∀ d ∈ ds, names.Bounds d.name := by
  have hpoint : names.Bounds names.point := ⟨⟨_, law.point⟩, rfl⟩
  have hlower : names.Bounds names.lower := ⟨⟨_, law.lower⟩, law.isCount.1⟩
  have hupper : names.Bounds names.upper := ⟨⟨_, law.upper⟩, law.isCount.2.1⟩
  have hstrict : ∀ s, names.strict = some s → names.Bounds s.1 ∧ names.Bounds s.2 := fun s hs =>
    ⟨⟨⟨_, (law.strict s hs).1⟩, (law.isCount.2.2 s hs).1⟩,
      ⟨⟨_, (law.strict s hs).2⟩, (law.isCount.2.2 s hs).2⟩⟩
  intro d hd
  cases k with
  | none =>
      cases h
      simp at hd
  | some i =>
      change i.directives names adjust = .ok ds at h
      rw [Interval.directives] at h
      split at h
      · cases h
        rw [List.mem_singleton] at hd
        subst hd
        exact hpoint
      · obtain ⟨low, hlow, h⟩ := bind_eq_ok_iff.mp h
        obtain ⟨high, hhigh, h⟩ := bind_eq_ok_iff.mp h
        obtain rfl := pure_eq_ok_iff.mp h
        obtain ⟨_, -, rfl⟩ := Interval.endDirective_ok hlow
        obtain ⟨_, -, rfl⟩ := Interval.endDirective_ok hhigh
        -- Without strict names the inclusive ones stand in for them.
        cases hs : names.strict with
        | none => grind
        | some s => grind

namespace Rule

variable {rule : Rule} {hooks : Hooks} {v w : Value} {path : String}

/-- What the rule has let pass, it lets pass again and unchanged. -/
def Settles [Library] (r : Rule) : Prop :=
  ∀ (v w : Value) (path : String), v.OnGrid → r.check .standard v path = .ok w →
    r.check .standard w path = .ok w

private theorem settles_of_nonnull [Library]
    (h : ∀ (v w : Value) (path : String), v.isNull = false → v.OnGrid →
    rule.check .standard v path = .ok w → rule.check .standard w path = .ok w) :
    rule.Settles := by
  intro v w path hgrid hcheck
  by_cases hnull : v.isNull = true
  · obtain rfl := eq_of_check_null hcheck hnull
    exact hcheck
  · exact h v w path (by simpa using hnull) hgrid hcheck

private theorem IsHookless.eq_of_check [Library] (hookless : rule.IsHookless) (flat : rule.IsFlat)
    (h : rule.check hooks v path = .ok w) : w = v := by
  by_cases hnull : v.isNull = true
  · exact eq_of_check_null h hnull
  · obtain ⟨-, -, hparts⟩ := (hookless.check_eq_ok_iff (by simpa using hnull)).mp h
    rw [flat.checkParts] at hparts
    exact (Except.ok.inj hparts).symm

theorem IsHookless.settles [Library] (hookless : rule.IsHookless) (flat : rule.IsFlat) :
    rule.Settles := by
  intro v w path _ h
  obtain rfl := hookless.eq_of_check flat h
  exact h

theorem settles_boolean [Library] (flat : rule.IsFlat) (hkind : rule.kind = .boolean)
    (hcasts : rule.casts ⊆ standardCasts .boolean) (hcustoms : rule.customs = []) :
    rule.Settles := by
  refine settles_of_nonnull fun v w path hnull _ h => ?_
  obtain ⟨u, -, hadmits, hds, hrun⟩ := (check_eq_ok_iff flat hnull).mp h
  rw [hcustoms] at hrun
  obtain rfl : u = w := Except.ok.inj hrun
  obtain ⟨b, rfl⟩ : ∃ b, u = .bool b := by
    rw [hkind] at hadmits
    match u, hadmits with
    | .bool b, _ => exact ⟨b, rfl⟩
  have hsettled : CastsSettled .standard path rule.casts (.bool b) := by
    intro name hname
    obtain rfl : name = Vocabulary.hook "castBoolean" := List.mem_singleton.mp (hcasts hname)
    exact ⟨.boolean, rfl, by cases b <;> rfl⟩
  exact check_of_settled flat ⟨_, rfl⟩ rfl hadmits hsettled hds (by simp [hcustoms, CustomsSettled])

namespace StandsFor

variable {adjust : Bool} {chain : Hierarchy}

theorem settles_text [Library] (h : rule.StandsFor adjust .text chain)
    (hstandard : rule.casts ⊆ standardCasts .text ∧ rule.customs ⊆ standardCustoms .text)
    (hkey : ∀ u ∈ chain, Vocabulary.hook "castHexadecimal" ∈ u.casts →
      u.key = Vocabulary.hex) : rule.Settles := by
  refine settles_of_nonnull fun v w path hnull _ hcheck => ?_
  obtain ⟨⟨s, rfl⟩, haccept, hcustoms, hlowered⟩ := h.check_text_ok hstandard hcheck hnull
  have hcasts : CastsSettled .standard path rule.casts (.text s) :=
    castsSettled_text hstandard.1 fun hmem => h.lower_eq_self hkey haccept (hlowered hmem) hmem
  exact check_of_settled h.flat ⟨_, rfl⟩ rfl (by rw [h.kind]; rfl) hcasts haccept hcustoms

theorem settles_numeric [Library] (h : rule.StandsFor adjust .numeric chain)
    (hstandard : rule.casts ⊆ standardCasts .numeric ∧
      rule.customs ⊆ standardCustoms .numeric) : rule.Settles := by
  refine settles_of_nonnull fun v w path hnull hgrid hcheck => ?_
  obtain ⟨x, y, rfl, hyx, hx, haccept, hcustoms⟩ :=
    h.check_numeric_ok hstandard hgrid.double hcheck hnull
  obtain ⟨bounds, hbounds, hds⟩ := Record.ofRun_directives_eq_ok (.inr (.inl rfl)) h.directives
  rw [hds, List.forall_mem_append] at haccept
  have hnames := Record.bounds_of_boundsOf (Record.lawful_boundNames .numeric chain.reverse) hbounds
  have hpoint : (Record.boundNames .numeric chain.reverse).point.isCount = false := by
    rw [Record.boundNames]
    split <;> rfl
  have hagain : ∀ d ∈ rule.directives, d.check (.ofNumber y) path = .ok () := by
    rw [hds, List.forall_mem_append]
    refine ⟨fun d hd => ?_, ?_⟩
    -- A bound sees the point only, which stays; decimals and wholeness are demands of the terms.
    · obtain ⟨⟨r, hr⟩, hcount⟩ := hnames d hd
      exact Directive.check_of_point hr (hcount.trans hpoint) hyx.point? (haccept.1 d hd)
    · have hfits := (Record.demands_accept_iff (c := .numeric) ⟨x, rfl⟩ path).mp haccept.2
      exact (Record.demands_accept_iff (c := .numeric) ⟨y, rfl⟩ path).mpr fun t ht =>
        Term.FitsNumber.of_wholeForm (hfits t ht) hyx hx
  exact check_of_settled h.flat (by cases y <;> exact ⟨_, rfl⟩) (Value.isNull_ofNumber y)
    (h.kind ▸ Kind.admits_ofNumber y) (castsSettled_numeric hstandard.1) hagain hcustoms

end StandsFor

private theorem checkPart_settles [Library] {part : Option Rule}
    (h : ∀ s, part = some s → s.Settles) (hgrid : v.OnGrid)
    (hcheck : checkPart .standard part v path = .ok w) :
    checkPart .standard part w path = .ok w := by
  cases part with
  | none => rfl
  | some s => exact h s rfl v w path hgrid hcheck

section Containers

variable {vs ws : List Value} {es checked : Entries}

private theorem ItemsCheck.settled [Library] (hitems : ∀ s, rule.items = some s → s.Settles)
    (hgrid : ∀ v ∈ vs, v.OnGrid) (h : rule.ItemsCheck .standard vs ws) :
    rule.ItemsCheck .standard ws ws := by
  refine List.forall₂_same.mpr fun w hw => ?_
  obtain ⟨v, hv, hcheck⟩ := exists_of_mem_right h hw
  exact checkPart_settles hitems (hgrid v hv) hcheck

private theorem EntriesCheck.settled [Library] (hkeys : ∀ s, rule.keys = some s → s.Settles)
    (hvalues : ∀ s, rule.values = some s → s.Settles)
    (hgrid : (Value.mapping es).OnGrid) (h : rule.EntriesCheck .standard es checked) :
    rule.EntriesCheck .standard (Entries.ofList checked) (Entries.ofList checked) := by
  cases hgrid with
  | mapping hgridKeys hgridValues =>
      refine List.forall₂_same.mpr fun c hc => ?_
      -- Where keys have met, the key of an entry and its value are of different pairs.
      obtain ⟨⟨j, hj, hkey⟩, k, hk, hvalue⟩ := Entries.mem_ofList hc
      obtain ⟨e, he, hchecks, -⟩ := exists_of_mem_right h hj
      obtain ⟨f, hf, -, hchecks'⟩ := exists_of_mem_right h hk
      rw [← hkey, ← hvalue]
      exact ⟨checkPart_settles hkeys (hgridKeys e he) hchecks,
        checkPart_settles hvalues (hgridValues f hf) hchecks'⟩

/-- A rule for lists that bounds their size and may ask for unique items. -/
structure IsListing (r : Rule) : Prop where
  kind : r.kind = .array
  hookless : r.IsHookless
  directives : ∀ d ∈ r.directives,
    (∃ relation, d.name.relation? = some relation) ∧ d.name.isCount = true ∨
      d = ⟨.unique, .null⟩

theorem IsListing.check_eq_ok_iff [Library] (h : rule.IsListing) (hnull : v.isNull = false) :
    rule.check hooks v path = .ok w ↔ ∃ vs ws, v = .list vs ∧ w = .list ws ∧
      (∀ d ∈ rule.directives, d.check (.list vs) path = .ok ()) ∧
      rule.ItemsCheck hooks vs ws := by
  rw [h.hookless.check_eq_ok_iff hnull, h.kind]
  constructor
  · rintro ⟨hadmits, hds, hparts⟩
    match v, hadmits with
    | .list vs, _ =>
        obtain ⟨ws, hitems, rfl⟩ := (checkParts_list_iff h.kind).mp hparts
        exact ⟨vs, ws, rfl, rfl, hds, hitems⟩
  · rintro ⟨vs, ws, rfl, rfl, hds, hitems⟩
    exact ⟨rfl, hds, (checkParts_list_iff h.kind).mpr ⟨ws, hitems, rfl⟩⟩

/-- A list that has been let pass is let pass again, unless items have become equal. -/
theorem IsListing.check_again_iff [Library] (h : rule.IsListing)
    (hitems : ∀ s, rule.items = some s → s.Settles) (hgrid : ∀ v ∈ vs, v.OnGrid)
    (hcheck : rule.check .standard (.list vs) path = .ok (.list ws)) :
    rule.check .standard (.list ws) path = .ok (.list ws) ↔
      (⟨.unique, .null⟩ ∈ rule.directives → Directive.Distinct ws) := by
  obtain ⟨_, _, hvs, hws, hds, hchecked⟩ := (h.check_eq_ok_iff rfl).mp hcheck
  cases hvs
  cases hws
  have hlength : ws.length = vs.length := (List.Forall₂.length_eq hchecked).symm
  rw [h.check_eq_ok_iff rfl]
  constructor
  · rintro ⟨_, _, hlist, -, hagain, -⟩ hunique
    cases hlist
    exact Directive.check_unique_iff.mp (hagain _ hunique)
  · intro hdistinct
    refine ⟨ws, ws, rfl, rfl, fun d hd => ?_, hchecked.settled hitems hgrid⟩
    rcases h.directives d hd with ⟨⟨r, hr⟩, hcount⟩ | rfl
    · exact Directive.check_of_count hr hcount (by simp [Value.count?, hlength]) (hds d hd)
    · exact Directive.check_unique_iff.mpr (hdistinct hd)

theorem IsListing.settles [Library] (h : rule.IsListing)
    (hunique : ⟨.unique, .null⟩ ∉ rule.directives) (hitems : ∀ s, rule.items = some s → s.Settles) :
    rule.Settles := by
  refine settles_of_nonnull fun v w path hnull hgrid hcheck => ?_
  obtain ⟨vs, ws, rfl, rfl, -⟩ := (h.check_eq_ok_iff hnull).mp hcheck
  cases hgrid with
  | list hgrid =>
      exact (h.check_again_iff hitems hgrid hcheck).mpr fun hmem => absurd hmem hunique

/-- A rule for objects that demands nothing of the object as a whole. -/
structure IsKeyed (r : Rule) : Prop where
  kind : r.kind = .object
  hookless : r.IsHookless
  directives : r.directives = []

theorem IsKeyed.check_eq_ok_iff [Library] (h : rule.IsKeyed) (hnull : v.isNull = false) :
    rule.check hooks v path = .ok w ↔
      ∃ es, v = .mapping es ∧ rule.checkParts hooks (.mapping es) path = .ok w := by
  rw [h.hookless.check_eq_ok_iff hnull, h.kind, h.directives]
  simp only [List.not_mem_nil, false_implies, implies_true, true_and]
  constructor
  · rintro ⟨hadmits, hparts⟩
    match v, hadmits with
    | .mapping es, _ => exact ⟨es, rfl, hparts⟩
  · rintro ⟨es, rfl, hparts⟩
    exact ⟨rfl, hparts⟩

theorem IsKeyed.settles [Library] (h : rule.IsKeyed) (hkeys : ∀ s, rule.keys = some s → s.Settles)
    (hvalues : ∀ s, rule.values = some s → s.Settles) : rule.Settles := by
  refine settles_of_nonnull fun v w path hnull hgrid hcheck => ?_
  obtain ⟨es, rfl, hparts⟩ := (h.check_eq_ok_iff hnull).mp hcheck
  cases haxes : rule.keys.isNone && rule.values.isNone with
  | true =>
      have hsame : rule.checkParts .standard (.mapping es) path = .ok (.mapping es) := by
        simp [checkParts, h.kind, haxes]
      obtain rfl : .mapping es = w := Except.ok.inj (hsame.symm.trans hparts)
      exact hcheck
  | false =>
      obtain ⟨checked, hchecked, rfl⟩ := (checkParts_mapping_iff h.kind haxes).mp hparts
      have hagain := hchecked.settled hkeys hvalues hgrid
      refine (h.check_eq_ok_iff rfl).mpr ⟨_, rfl, ?_⟩
      refine (checkParts_mapping_iff h.kind haxes).mpr ⟨_, hagain, ?_⟩
      rw [Entries.ofList_eq_self (Entries.distinct_ofList checked)]

end Containers

end Rule

end TermRules
