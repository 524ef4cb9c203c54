import TermRules.Program
import TermRules.Proofs.Record.Uniform
import TermRules.Proofs.Rule.Acceptance

/-!
A rule is the conjunction of the terms it was made from. Hooks are left out of the comparison, and
so are infinite values: a rule has no bound for an infinite end and cannot tell whether it belongs
to the interval.
-/

namespace TermRules

namespace Term

/-- A value meets a term: its quantity lies in the term's own interval, and it fits the rest. -/
def Meets [Library] (t : Term) (c : Category) (v : Value) : Prop :=
  (∀ i, t.interval? c = some i → ∃ x, c.quantity? v = some x ∧ i.normalize.Contains x) ∧
    t.Fits c v

end Term

namespace Record

variable {adjust : Bool} {r : Record Number} {rule : Rule}

/-- What a record and its rule have in common. -/
structure Renders (r : Record Number) (adjust : Bool) (rule : Rule) : Prop where
  kind : rule.kind = (r.category.getD .any).kind
  directives : r.directives adjust = .ok rule.directives
  casts : rule.casts = r.casts
  customs : rule.customs = r.customs
  items : partRule adjust r.child = .ok rule.items
  keys : partRule adjust r.keyRecord = .ok rule.keys
  values : partRule adjust r.valueRecord = .ok rule.values

theorem renders_of_rule (h : r.rule adjust = .ok rule) : r.Renders adjust rule := by
  obtain ⟨category, length, regex, range, decimals, size, marks, target, casts, customs, child,
    keyRecord, valueRecord⟩ := r
  obtain ⟨own, hown, h⟩ := bind_eq_ok_iff.mp h
  obtain ⟨ds, hds, hown⟩ := bind_eq_ok_iff.mp hown
  obtain rfl := pure_eq_ok_iff.mp hown
  obtain ⟨items, hitems, h⟩ := bind_eq_ok_iff.mp h
  obtain ⟨keys, hkeys, h⟩ := bind_eq_ok_iff.mp h
  obtain ⟨values, hvalues, h⟩ := bind_eq_ok_iff.mp h
  obtain rfl := pure_eq_ok_iff.mp h
  exact ⟨rfl, hds, rfl, rfl, hitems, hkeys, hvalues⟩

theorem exists_of_partRule {part : Option (Record Number)} {s : Rule}
    (h : partRule adjust part = .ok (some s)) : ∃ r, part = some r ∧ r.rule adjust = .ok s := by
  cases part with
  | none => simp [partRule] at h
  | some r =>
      obtain ⟨t, ht, hs⟩ := bind_eq_ok_iff.mp h
      obtain rfl := Option.some.inj (pure_eq_ok_iff.mp hs)
      exact ⟨r, rfl, ht⟩

theorem rule_eq_ok (hchild : r.child = none) (hkeys : r.keyRecord = none)
    (hvalues : r.valueRecord = none) (h : r.rule adjust = .ok rule) :
    rule.IsFlat ∧ rule.kind = (r.category.getD .any).kind ∧ rule.casts = r.casts ∧
      rule.customs = r.customs ∧ r.directives adjust = .ok rule.directives := by
  have hrenders := renders_of_rule h
  have hpart {part : Option (Record Number)} {x : Option Rule} (hnone : part = none)
      (h : partRule adjust part = .ok x) : x = none := by
    subst hnone
    exact (Except.ok.inj h).symm
  exact ⟨⟨hpart hchild hrenders.items, hpart hkeys hrenders.keys, hpart hvalues hrenders.values⟩,
    hrenders.kind, hrenders.casts, hrenders.customs, hrenders.directives⟩

theorem ofRun_rule_eq_ok {c : Category} (hc : c.IsMeasured) {run : List Term} {rule : Rule}
    (h : (ofRun c run).rule adjust = .ok rule) :
    rule.IsFlat ∧ rule.kind = c.kind ∧ rule.casts = (ofRun c run).casts ∧
      rule.customs = (ofRun c run).customs ∧
      (ofRun c run).directives adjust = .ok rule.directives := by
  rcases hc with rfl | rfl | rfl <;> exact rule_eq_ok rfl rfl rfl h

end Record

theorem Value.isOf_of_admits {c : Category} (hc : c.IsMeasured) {v : Value}
    (h : c.kind.admits v = true) : v.IsOf c := by
  rcases hc with rfl | rfl | rfl
  · match v, h with
    | .text s, _ => exact ⟨s, rfl⟩
  · match v, h with
    | .int n, _ => exact ⟨.int n, rfl⟩
    | .double d, _ => exact ⟨.double d, rfl⟩
  · match v, h with
    | .list items, _ => exact ⟨items, rfl⟩

namespace Value.IsOf

variable {c : Category} {v : Value}

private theorem admits (hv : v.IsOf c) : c.kind.admits v = true := by
  match c, v, hv with
  | .text, _, ⟨s, rfl⟩ | .list, _, ⟨items, rfl⟩ => rfl
  | .numeric, _, ⟨x, rfl⟩ => exact Kind.admits_ofNumber x

private theorem isNull (hv : v.IsOf c) : v.isNull = false := by
  match c, v, hv with
  | .text, _, ⟨s, rfl⟩ | .list, _, ⟨items, rfl⟩ => rfl
  | .numeric, _, ⟨x, rfl⟩ => exact isNull_ofNumber x

theorem exists_quantity (hv : v.IsOf c) : ∃ x, c.quantity? v = some x := by
  match c, v, hv with
  | .text, _, ⟨s, rfl⟩ => exact ⟨_, rfl⟩
  | .list, _, ⟨items, rfl⟩ => exact ⟨_, rfl⟩
  | .numeric, _, ⟨x, rfl⟩ => exact ⟨x, number?_ofNumber x⟩

/-- The quantity of a value that is no infinite or undefined number is finite. -/
theorem exists_point (hv : v.IsOf c) (hfinite : ∀ d, v = .double d → ∃ q, d.point? = some (.at q))
    {x : Number} (hx : c.quantity? v = some x) : ∃ q, x.point? = some (.at q) := by
  match c, v, hv with
  | .text, _, ⟨s, rfl⟩ | .list, _, ⟨items, rfl⟩ =>
      cases hx
      exact ⟨_, rfl⟩
  | .numeric, _, ⟨.int n, rfl⟩ =>
      cases hx
      exact ⟨n, rfl⟩
  | .numeric, _, ⟨.double d, rfl⟩ =>
      cases hx
      exact hfinite d rfl

end Value.IsOf

namespace Rule

/-- The rule of a hierarchy without hooks leaves a value as it is, and accepts it exactly if the
value meets each term of the hierarchy by itself. -/
theorem check_iff_meets_each [Library] {c : Category} (hc : c.IsMeasured) {h : Hierarchy}
    (hne : h ≠ []) (hcat : ∀ t ∈ h, t.category = c.name)
    (hookless : ∀ t ∈ h, t.casts = [] ∧ t.customs = [])
    (free : ∀ t ∈ h, ∀ i, t.interval? c = some i → i.NaNFree) {m : Number}
    (common : ∀ t ∈ h, ∀ i, t.interval? c = some i → i.normalize.Contains m)
    (whole : (c = .numeric → ∃ t ∈ h, t.key = Vocabulary.integer) →
      ∀ t ∈ h, ∀ i, t.interval? c = some i → i.lower.IsWholeBound ∧ i.upper.IsWholeBound)
    (hooks : Hooks) (path : String) :
    ∃ r, Record.ofHierarchy h = .ok r ∧ ∀ rule, r.rule true = .ok rule →
      ∀ v : Value, v.IsOf c → (∀ d, v = .double d → ∃ q, d.point? = some (.at q)) →
        (rule.check hooks v path = .ok v ↔ ∀ t ∈ h, t.Meets c v) := by
  have hobject : c ≠ .object := by
    rcases hc with rfl | rfl | rfl <;> exact nofun
  refine ⟨_, Record.ofHierarchy_of_category hobject hne hcat, fun rule hrule v hv hfinite => ?_⟩
  obtain ⟨flat, hkind, hcasts, hcustoms, hds⟩ := Record.ofRun_rule_eq_ok hc hrule
  have hmem {P : Term → Prop} : (∀ t ∈ h.reverse, P t) ↔ ∀ t ∈ h, P t := by
    simp only [List.mem_reverse]
  have hnocasts : rule.casts = [] := by
    rw [hcasts, Record.ofRun_casts, List.flatMap_eq_nil_iff.mpr (hmem.mpr fun t ht =>
      (hookless t ht).1), List.eraseDups_nil]
  have hnocustoms : rule.customs = [] := by
    rw [hcustoms, Record.ofRun_customs, List.flatMap_eq_nil_iff.mpr (hmem.mpr fun t ht =>
      (hookless t ht).2), List.eraseDups_nil]
  obtain ⟨x, hx⟩ := hv.exists_quantity
  obtain ⟨q, hq⟩ := hv.exists_point hfinite hx
  have hwhole (hstrict : (Record.boundNames c h.reverse).strict = none) :
      ∀ t ∈ h, ∀ i, t.interval? c = some i → i.lower.IsWholeBound ∧ i.upper.IsWholeBound := by
    apply whole
    rintro rfl
    simpa using Record.exists_integer_of_no_strict hstrict
  have haccept := Record.directives_accept_iff hc (hmem.mpr free) (hmem.mpr common)
    (fun hstrict => hmem.mpr (hwhole hstrict)) hds hv hx hq path
  have hmeets : (∀ d ∈ rule.directives, d.check v path = .ok ()) ↔ ∀ t ∈ h, t.Meets c v := by
    rw [haccept, hmem]
    refine forall₂_congr fun t ht => and_congr_left fun _ => ?_
    simp only [hx, Option.some.injEq, exists_eq_left', Interval.isLoose, Bool.not_true,
      Bool.and_false]
    refine forall₂_congr fun i hi => ?_
    -- The rule counts infinite ends as inclusive, which no finite quantity notices.
    exact Interval.contains_relax_false_iff (free t ht i hi).normalize hq
  rw [check_eq_ok_iff flat hv.isNull, ← hmeets, hkind]
  simp [cast, hnocasts, hnocustoms, runCustoms, hv.admits]

/-- Whole numbers above zero and up to ten, among the numbers below twenty. -/
def smallWholes : Hierarchy :=
  [{ id := "ten", key := Vocabulary.integer, category := "numeric",
     constraints := { range := some ⟨.int 0, .int 10, false, true⟩ } },
   { id := "twenty", key := "twenty", category := "numeric",
     constraints := { range := some ⟨.double (.infinite true), .int 20, true, false⟩ } }]

section Program

open Program

theorem check_smallWholes_seven :
    ∃ r rule, Record.ofHierarchy smallWholes = .ok r ∧ r.rule true = .ok rule ∧
      rule.check .standard (.int 7) "" = .ok (.int 7) := by
  have hcontains : ∀ t ∈ smallWholes, ∀ i, t.interval? .numeric = some i →
      i.normalize.Contains (.int 7) := by
    simp only [smallWholes, List.forall_mem_cons, Term.interval?, Option.some.injEq, forall_eq']
    exact ⟨⟨.inl (by decide), .inl (by decide)⟩, ⟨.inl (by decide), .inl (by decide)⟩, by simp⟩
  have hwhole : ∀ t ∈ smallWholes, ∀ i, t.interval? .numeric = some i →
      i.lower.IsWholeBound ∧ i.upper.IsWholeBound := by
    simp [smallWholes, Term.interval?, Number.IsWholeBound]
  obtain ⟨r, hr, hchecks⟩ := check_iff_meets_each (c := .numeric) (.inr (.inl rfl))
    (h := smallWholes) (by simp [smallWholes]) (by decide) (by simp [smallWholes])
    (fun t ht i hi => ⟨(hwhole t ht i hi).1.not_isNaN, (hwhole t ht i hi).2.not_isNaN⟩)
    hcontains (fun _ => hwhole) .standard ""
  have hok : (r.rule true).isOk = true := by
    cases hr
    decide +kernel
  obtain ⟨rule, hrule⟩ : ∃ rule, r.rule true = .ok rule := by
    cases h : r.rule true with
    | error cause => simp [h, Except.isOk, Except.toBool] at hok
    | ok rule => exact ⟨rule, rfl⟩
  refine ⟨r, rule, hr, hrule, ?_⟩
  refine (hchecks rule hrule (.int 7) ⟨.int 7, rfl⟩ (by simp)).mpr fun t ht => ⟨?_, ?_⟩
  · exact fun i hi => ⟨.int 7, rfl, hcontains t ht i hi⟩
  · have hnone : t.constraints.decimals = none := by
      revert t
      decide
    exact ⟨by simp [hnone], by simp⟩

end Program

end Rule

end TermRules
