import TermRules.Program
import TermRules.Proofs.Registry.Descriptor

/-!
Values that differ until they have been checked. Casts rewrite the items of a set after the set has
been found to have unique items, and they rewrite the keys of an object while its entries are put
together. Where they make two of them equal, the set that comes out repeats an item and the object
has lost an entry; nowhere else does either happen.
-/

namespace TermRules

open Registry (standardCasts standardCustoms)

namespace Rule

variable {hooks : Hooks} {rule : Rule} {path : String} {v w : Value}

section Items

variable {vs ws : List Value}

/-- Two values that checking by the rule for a part makes equal. -/
def Conflates [Library] (hooks : Hooks) (part : Option Rule) (v u : Value) : Prop :=
  ∃ v' u', checkPart hooks part v "" = .ok v' ∧ checkPart hooks part u "" = .ok u' ∧
    u'.same v' = true

private theorem ItemsCheck.distinct_iff [Library] (h : rule.ItemsCheck hooks vs ws) :
    Directive.Distinct ws ↔ vs.Pairwise fun v u => ¬ Conflates hooks rule.items v u := by
  refine (pairwise_iff_of_forall₂ (fun v u v' u' hv hu => ?_) h).symm
  rw [← Bool.not_eq_true, not_iff_not]
  constructor
  · rintro ⟨v'', u'', hv'', hu'', hsame⟩
    obtain rfl := Except.ok.inj (hv.symm.trans hv'')
    obtain rfl := Except.ok.inj (hu.symm.trans hu'')
    exact hsame
  · intro hsame
    exact ⟨v', u', hv, hu, hsame⟩

end Items

section Keys

/-- The text that casts make of a scalar, in lower case if they are for hexadecimal numerals. -/
def wording (casts : List String) (v : Value) : String :=
  if Vocabulary.hook "castHexadecimal" ∈ casts then Text.lower (Cast.toText v) else Cast.toText v

private theorem eq_wording_of_runCasts {names : List String} {s : String}
    (hnames : names ⊆ standardCasts .text) (hnodup : names.Nodup)
    (h : runCasts .standard path names v = .ok (.text s)) : s = wording names v := by
  induction names generalizing v with
  | nil =>
      cases h
      rfl
  | cons name names ih =>
      obtain ⟨hname, hnames⟩ := List.cons_subset.mp hnames
      obtain ⟨hnew, hnodup⟩ := List.nodup_cons.mp hnodup
      obtain ⟨c, u, hlookup, happly, h⟩ := runCasts_cons_ok.mp h
      obtain ⟨d, hd, hcases⟩ := standard_casts_text hname
      obtain rfl := Except.ok.inj (hlookup.symm.trans hd)
      rw [ih hnames hnodup h]
      rcases hcases with ⟨rfl, hne⟩ | ⟨rfl, rfl⟩
      · cases happly
        simp only [wording, List.mem_cons, Ne.symm hne, false_or]
        rfl
      · cases happly
        simp only [wording, hnew, List.mem_cons_self, if_true, if_false]
        rfl

/-- What a rule for keys makes of a key that it lets pass: its wording, unless it is null. -/
def keyForm (part : Option Rule) (k : Scalar) : Scalar :=
  match part, k with
  | none, _ => k
  | some _, .null => .null
  | some r, _ => .text (wording r.casts (.scalar k))

private theorem keyForm_some {r : Rule} {k : Scalar} (hnull : (Value.scalar k).isNull = false) :
    keyForm (some r) k = .text (wording r.casts (.scalar k)) := by
  cases k with
  | null => contradiction
  | bool _ | int _ | double _ | text _ => rfl

private theorem eq_keyForm_of_check [Library] {adjust : Bool} {chain : Hierarchy}
    (hplain : Hierarchy.IsPlain .text chain)
    (hrule : (Record.ofRun .text chain.reverse).rule adjust = .ok rule) {k c : Scalar}
    (h : rule.check .standard (.scalar k) path = .ok (.scalar c)) : c = keyForm (some rule) k := by
  have hstands := standsFor_of_rule (c := .text) (.inl rfl) hrule
  have hrenders := Record.renders_of_rule hrule
  obtain ⟨hcasts, hcustoms⟩ := hrenders.hooks_subset hplain.runs rfl rfl
  have hnodup : rule.casts.Nodup := hrenders.casts ▸ nodup_eraseDups _
  by_cases hnull : (Value.scalar k).isNull = true
  · cases eq_of_check_null h hnull
    cases k with
    | null => rfl
    | bool _ | int _ | double _ | text _ => contradiction
  · rw [Bool.not_eq_true] at hnull
    obtain ⟨u, hcast, hadmits, -, hrun⟩ := (check_eq_ok_iff hstands.flat hnull).mp h
    obtain ⟨rfl, -⟩ := runCustoms_text hcustoms hrun
    have hruncasts := runCasts_of_cast (by rw [hstands.kind]; exact nofun) hcast
    rw [hstands.kind] at hadmits
    obtain ⟨s, hs⟩ : (Value.scalar c).IsOf .text := Value.isOf_of_admits (.inl rfl) hadmits
    rw [hs] at hruncasts
    rw [keyForm_some hnull, ← eq_wording_of_runCasts hcasts hnodup hruncasts]
    exact Value.scalar.inj hs

variable {es checked out : Entries}

private theorem EntriesCheck.keys [Library]
    (hform : ∀ k c, checkPart .standard rule.keys (.scalar k) "" =
      .ok (.scalar c) → c = keyForm rule.keys k)
    (h : rule.EntriesCheck .standard es checked) :
    checked.map (·.1) = es.map fun e => keyForm rule.keys e.1 := by
  induction h with
  | nil => rfl
  | cons he _ ih => rw [List.map_cons, List.map_cons, ih, hform _ _ he.1]

/-- Every entry has an entry of its own in `out`, with the key and the value that checking makes of
them. -/
def KeepsEntries [Library] (hooks : Hooks) (r : Rule) (es out : Entries) : Prop :=
  ∃ kept, kept.Perm out ∧ r.EntriesCheck hooks es kept

private theorem KeepsEntries.length_eq [Library] (h : rule.KeepsEntries hooks es out) :
    out.length = es.length := by
  obtain ⟨kept, hperm, hchecked⟩ := h
  rw [← hperm.length_eq, List.Forall₂.length_eq hchecked]

private theorem IsKeyed.keepsEntries_iff [Library] (h : rule.IsKeyed) (hes : es.Distinct)
    (hform : ∀ k c, checkPart .standard rule.keys (.scalar k) "" = .ok (.scalar c) →
      c = keyForm rule.keys k)
    (hcheck : rule.check .standard (.mapping es) path = .ok w) :
    ∃ out, w = .mapping out ∧ (rule.KeepsEntries .standard es out ↔
      (es.map fun e => keyForm rule.keys e.1).Pairwise fun j k => j.same k = false) := by
  obtain ⟨_, hes', hparts⟩ := (h.check_eq_ok_iff rfl).mp hcheck
  cases hes'
  cases haxes : rule.keys.isNone && rule.values.isNone with
  | true =>
      have hsame : rule.checkParts .standard (.mapping es) path = .ok (.mapping es) := by
        simp [checkParts, h.kind, haxes]
      obtain rfl := Except.ok.inj (hsame.symm.trans hparts)
      obtain ⟨hkeys, hvalues⟩ : rule.keys = none ∧ rule.values = none := by simpa using haxes
      have hkept : rule.KeepsEntries .standard es es := by
        refine ⟨es, .refl es, List.forall₂_same.mpr fun e _ => ?_⟩
        rw [hkeys, hvalues]
        exact ⟨rfl, rfl⟩
      rw [Entries.distinct_iff_keys] at hes
      refine ⟨es, rfl, iff_of_true hkept ?_⟩
      simpa [hkeys, keyForm] using hes
  | false =>
      obtain ⟨checked, hchecked, rfl⟩ := (checkParts_mapping_iff h.kind haxes).mp hparts
      refine ⟨_, rfl, ?_⟩
      rw [← hchecked.keys hform, ← Entries.distinct_iff_keys]
      constructor
      · intro hkept
        rw [← Entries.length_ofList_eq_iff, hkept.length_eq, List.Forall₂.length_eq hchecked]
      · intro hdistinct
        exact ⟨checked, by rw [Entries.ofList_eq_self hdistinct], hchecked⟩

end Keys

end Rule

namespace Registry

variable {maxDepth : Int} {adjust : Bool} {o : Options} {rule : Rule} {path : String} {w : Value}

/-- The items of a set are unique as they are given. They are still so when they have been checked
unless two of them have become equal, and then the set is not let pass again. -/
theorem check_set_distinct_iff [Library] (hrule : (standard maxDepth).ruleOf adjust o = .ok rule)
    (hformat : o.format = some "set") {items : List Value} (hitems : (Value.list items).OnGrid)
    (h : rule.check .standard (.list items) path = .ok w) :
    ∃ outs, w = .list outs ∧ rule.ItemsCheck .standard items outs ∧ Directive.Distinct items ∧
      (Directive.Distinct outs ↔
        items.Pairwise fun v u => ¬ Rule.Conflates .standard rule.items v u) ∧
      (Directive.Distinct outs ↔ rule.check .standard w path = .ok w) := by
  rcases ruleOf_forms hrule with ⟨-, hscalar⟩ | ⟨hlisting, hunique, hforms⟩
  · exact absurd hformat hscalar
  obtain ⟨_, outs, hvs, rfl, hds, hchecked⟩ := (hlisting.check_eq_ok_iff rfl).mp h
  cases hvs
  have hsettle : ∀ s, rule.items = some s → s.Settles := by
    intro s hs
    rcases hforms with hflat | ⟨-, helement⟩
    · simp [hflat.items] at hs
    · exact (helement s hs).settles
  refine ⟨outs, rfl, hchecked, Directive.check_unique_iff.mp (hds _ (hunique hformat)),
    hchecked.distinct_iff, ?_⟩
  cases hitems with
  | list hgrid =>
      rw [hlisting.check_again_iff hsettle hgrid h]
      exact ⟨fun hdistinct _ => hdistinct, fun hagain => hagain (hunique hformat)⟩

/-- A set of hexadecimal numerals. -/
def codes : Options where
  type := some Vocabulary.hex
  format := some "set"

section Program

open Program

theorem check_set_of_different_codes :
    ∃ rule outs, (standard 10).ruleOf true codes = .ok rule ∧
      rule.check .standard (.list [.text "AB", .text "cd"]) "" = .ok (.list outs) ∧
      outs = [.text "ab", .text "cd"] ∧ Directive.Distinct outs := by
  have hgrid : (Value.list [.text "AB", .text "cd"]).OnGrid := by
    refine .list ?_
    simp only [List.forall_mem_cons]
    exact ⟨.scalar nofun, .scalar nofun, by simp⟩
  obtain ⟨rule, hrule, hcheck, hagain⟩ : ∃ rule, (standard 10).ruleOf true codes = .ok rule ∧
      rule.check .standard (.list [.text "AB", .text "cd"]) "" =
        .ok (.list [.text "ab", .text "cd"]) ∧
      rule.check .standard (.list [.text "ab", .text "cd"]) "" =
        .ok (.list [.text "ab", .text "cd"]) := ⟨_, rfl, rfl, rfl⟩
  obtain ⟨outs, houts, -, -, -, hiff⟩ := check_set_distinct_iff hrule rfl hgrid hcheck
  cases houts
  exact ⟨rule, _, hrule, hcheck, rfl, hiff.mpr hagain⟩

/-- Numerals that differ in case are one numeral after the check. -/
theorem check_set_repeats_code :
    ∃ rule outs, (standard 10).ruleOf true codes = .ok rule ∧
      rule.check .standard (.list [.text "AB", .text "ab"]) "" = .ok (.list outs) ∧
      ¬ Directive.Distinct outs := by
  refine ⟨_, [.text "ab", .text "ab"], rfl, rfl, ?_⟩
  simp [Directive.Distinct, Value.same, Scalar.same]

end Program

/-- An object keeps an entry for each of its own, unless two of its keys come to the same form. -/
theorem check_object_keeps_iff [Library] (hrule : (standard maxDepth).ruleOf adjust o = .ok rule)
    (hkind : rule.kind = .object) {es : Entries} (hes : es.Distinct)
    (h : rule.check .standard (.mapping es) path = .ok w) :
    ∃ out, w = .mapping out ∧ (rule.KeepsEntries .standard es out ↔
      (es.map fun e => Rule.keyForm rule.keys e.1).Pairwise fun j k => j.same k = false) := by
  rcases ruleOf_forms hrule with ⟨helement, -⟩ | ⟨hlisting, -⟩
  · obtain ⟨hkeyed, hkeys⟩ := helement.keyed hkind
    refine hkeyed.keepsEntries_iff hes (fun k c hc => ?_) h
    cases hpart : rule.keys with
    | none =>
        rw [hpart] at hc
        cases hc
        rfl
    | some s =>
        obtain ⟨chain, hplain, hs⟩ := hkeys s hpart
        rw [hpart] at hc
        exact Rule.eq_keyForm_of_check hplain hs hc
  · rw [hlisting.kind] at hkind
    contradiction

section Program

open Program

theorem check_object_keeps_different_keys :
    ∃ rule out, (standard 10).ruleOf true tallies = .ok rule ∧ rule.kind = .object ∧
      rule.check .standard (.mapping [(.text "AB", .int 1), (.text "cd", .int 2)]) "" =
        .ok (.mapping out) ∧
      rule.KeepsEntries .standard [(.text "AB", .int 1), (.text "cd", .int 2)] out := by
  obtain ⟨rule, hrule, hkind, hforms, hcheck⟩ :
      ∃ rule, (standard 10).ruleOf true tallies = .ok rule ∧ rule.kind = .object ∧
        [.text "AB", .text "cd"].map (Rule.keyForm rule.keys) = [.text "ab", .text "cd"] ∧
        rule.check .standard (.mapping [(.text "AB", .int 1), (.text "cd", .int 2)]) "" =
          .ok (.mapping [(.text "ab", .int 1), (.text "cd", .int 2)]) := ⟨_, rfl, rfl, rfl, rfl⟩
  have hdistinct : Entries.Distinct [(.text "AB", .int 1), (.text "cd", .int 2)] := by
    simp [Entries.Distinct, Scalar.same]
  obtain ⟨out, hout, hiff⟩ := check_object_keeps_iff hrule hkind hdistinct hcheck
  refine ⟨rule, out, hrule, hkind, hout ▸ hcheck, hiff.mpr ?_⟩
  change ([.text "AB", .text "cd"].map (Rule.keyForm rule.keys)).Pairwise _
  rw [hforms]
  simp [Scalar.same]

/-- Of two keys that differ in case the value of the second one stays. -/
theorem check_object_loses_entry :
    ∃ rule out, (standard 10).ruleOf true tallies = .ok rule ∧ rule.kind = .object ∧
      rule.check .standard (.mapping [(.text "AB", .int 1), (.text "ab", .int 2)]) "" =
        .ok (.mapping out) ∧
      ¬ rule.KeepsEntries .standard [(.text "AB", .int 1), (.text "ab", .int 2)] out := by
  refine ⟨_, [(.text "ab", .int 2)], rfl, rfl, rfl, fun hkept => ?_⟩
  have hlength := hkept.length_eq
  contradiction

end Program

end Registry

end TermRules
