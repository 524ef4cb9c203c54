import TermRules.Program
import TermRules.Proofs.Record.Tree
import TermRules.Proofs.Rule.Conjunction
import TermRules.Proofs.Rule.Parts

/-!
Where records have one for elements below them. The rule of such a record has a rule for items, and
a check looks at that only in arrays: under any other category the terms in front of a change of
category demand nothing. Hierarchies that keep to one category, apart from the lists that they are
in, are free of that.
-/

namespace TermRules

namespace Rule

variable {r s : Rule}

/-- `s` is the rule `r` itself or is somewhere below it. -/
def IsWithin (s r : Rule) : Prop :=
  Relation.ReflTransGen IsPartOf s r

/-- Below the rule, only arrays have rules for their items. -/
def OpensInArrays (r : Rule) : Prop :=
  ∀ s : Rule, s.IsWithin r → ∀ items, s.items = some items → s.kind = .array

private theorem checkParts_withItems [Library] {hooks : Hooks} (hkind : r.kind ≠ .array)
    (items : Option Rule) (v : Value) (path : String) :
    checkParts hooks { r with items := items } v path = checkParts hooks r v path := by
  obtain ⟨kind, ds, refs, casts, customs, own, keys, values⟩ := r
  cases kind with
  | array => contradiction
  | any | boolean | string | number | struct | object => cases v <;> rfl

/-- Only arrays are checked for their items. -/
theorem check_withItems [Library] {hooks : Hooks} (hkind : r.kind ≠ .array) (items : Option Rule)
    (v : Value) (path : String) :
    ({ r with items := items }).check hooks v path = r.check hooks v path := by
  cases hnull : v.isNull with
  | false =>
      rw [check_eq_stages hnull, check_eq_stages hnull]
      simp only [checkParts_withItems hkind]
  | true =>
      obtain ⟨kind, ds, refs, casts, customs, own, keys, values⟩ := r
      simp only [check, hnull, if_true]

end Rule

namespace Record

variable {adjust : Bool} {r q : Record Number} {rule s : Rule} {part : Option Rule} {h : Hierarchy}

/-- Below the record, only lists have records for their elements. -/
def OpensInLists (r : Record Number) : Prop :=
  ∀ s : Record Number, s.IsWithin r → ∀ child, s.child = some child → s.category = some .list

section Rules

private theorem exists_of_partRule_some (h : partRule adjust (some q) = .ok part) :
    ∃ s, q.rule adjust = .ok s ∧ part = some s := by
  obtain ⟨s, hs, hpart⟩ := bind_eq_ok_iff.mp h
  exact ⟨s, hs, (pure_eq_ok_iff.mp hpart).symm⟩

private theorem Renders.exists_record (hrenders : q.Renders adjust rule) (hs : s.IsPartOf rule) :
    ∃ p : Record Number, p.IsPartOf q ∧ p.rule adjust = .ok s := by
  rcases hs with hs | hs | hs
  · obtain ⟨p, hp, hrule⟩ := exists_of_partRule (hs ▸ hrenders.items)
    exact ⟨p, .inl hp, hrule⟩
  · obtain ⟨p, hp, hrule⟩ := exists_of_partRule (hs ▸ hrenders.keys)
    exact ⟨p, .inr (.inl hp), hrule⟩
  · obtain ⟨p, hp, hrule⟩ := exists_of_partRule (hs ▸ hrenders.values)
    exact ⟨p, .inr (.inr hp), hrule⟩

private theorem Renders.exists_rule (hrenders : r.Renders adjust rule) (hq : q.IsPartOf r) :
    ∃ s : Rule, s.IsPartOf rule ∧ q.rule adjust = .ok s := by
  rcases hq with hq | hq | hq
  · obtain ⟨s, hs, hpart⟩ := exists_of_partRule_some (hq ▸ hrenders.items)
    exact ⟨s, .inl hpart, hs⟩
  · obtain ⟨s, hs, hpart⟩ := exists_of_partRule_some (hq ▸ hrenders.keys)
    exact ⟨s, .inr (.inl hpart), hs⟩
  · obtain ⟨s, hs, hpart⟩ := exists_of_partRule_some (hq ▸ hrenders.values)
    exact ⟨s, .inr (.inr hpart), hs⟩

/-- The rules in the tree of a rule are those of the records in the tree of its record. -/
theorem exists_record_of_isWithin (hrule : r.rule adjust = .ok rule) (hs : s.IsWithin rule) :
    ∃ q : Record Number, q.IsWithin r ∧ q.rule adjust = .ok s := by
  induction hs using Relation.ReflTransGen.head_induction_on with
  | refl => exact ⟨r, .refl, hrule⟩
  | head hpart _ ih =>
      obtain ⟨q, hq, hqrule⟩ := ih
      obtain ⟨p, hp, hprule⟩ := (renders_of_rule hqrule).exists_record hpart
      exact ⟨p, .head hp hq, hprule⟩

private theorem exists_rule_of_isWithin (hrule : r.rule adjust = .ok rule) (hq : q.IsWithin r) :
    ∃ s : Rule, s.IsWithin rule ∧ q.rule adjust = .ok s := by
  induction hq using Relation.ReflTransGen.head_induction_on with
  | refl => exact ⟨rule, .refl, hrule⟩
  | head hpart _ ih =>
      obtain ⟨s, hs, hsrule⟩ := ih
      obtain ⟨p, hp, hprule⟩ := (renders_of_rule hsrule).exists_rule hpart
      exact ⟨p, .head hp hs, hprule⟩

private theorem Renders.kind_eq_array_iff (hrenders : q.Renders adjust s) :
    s.kind = .array ↔ q.category = some .list := by
  rw [hrenders.kind]
  cases q.category with
  | none => decide
  | some c => cases c <;> decide

private theorem opensInArrays_iff (hrule : r.rule adjust = .ok rule) :
    rule.OpensInArrays ↔ r.OpensInLists := by
  constructor
  · intro hopens q hq child hchild
    obtain ⟨s, hs, hsrule⟩ := exists_rule_of_isWithin hrule hq
    have hrenders := renders_of_rule hsrule
    obtain ⟨items, -, hitems⟩ := exists_of_partRule_some (hchild ▸ hrenders.items)
    exact hrenders.kind_eq_array_iff.mp (hopens s hs items hitems)
  · intro hopens s hs items hitems
    obtain ⟨q, hq, hqrule⟩ := exists_record_of_isWithin hrule hs
    have hrenders := renders_of_rule hqrule
    obtain ⟨child, hchild, -⟩ := exists_of_partRule (hitems ▸ hrenders.items)
    exact hrenders.kind_eq_array_iff.mpr (hopens q hq child hchild)

end Rules

section Layers

variable {rs : List (Record Number)}

/-- Every record of the list but the last one is of lists. -/
def AllButLastLists (rs : List (Record Number)) : Prop :=
  ∀ q rest, q :: rest <:+ rs → rest ≠ [] → q.category = some .list

private theorem allButLastLists_singleton (q : Record Number) : AllButLastLists [q] := by
  intro p rest hsuffix hrest
  have hlength := hsuffix.length_le
  simp_all

private theorem allButLastLists_pair {q p : Record Number} :
    AllButLastLists [q, p] ↔ q.category = some .list := by
  constructor
  · intro h
    exact h q [p] List.suffix_rfl (List.cons_ne_nil p [])
  · intro hq q' rest hsuffix hrest
    rcases List.suffix_cons_iff.mp hsuffix with heq | hsuffix
    · rw [(List.cons.inj heq).1, hq]
    · exact allButLastLists_singleton p q' rest hsuffix hrest

/-- Neighbours that differ in their category cannot both be of lists. -/
theorem AllButLastLists.length_le (h : AllButLastLists rs)
    (hdiffer : rs.IsChain fun a b => a.category ≠ b.category) : rs.length ≤ 2 := by
  rcases rs with _ | ⟨a, _ | ⟨b, _ | ⟨c, rest⟩⟩⟩
  · simp
  · simp
  · simp
  · have ha := h a (b :: c :: rest) List.suffix_rfl (List.cons_ne_nil _ _)
    have hb := h b (c :: rest) (List.suffix_cons a _) (List.cons_ne_nil _ _)
    exact absurd (ha.trans hb.symm) (List.isChain_cons_cons.mp hdiffer).1

end Layers

end Record

namespace Hierarchy

variable {h : Hierarchy}

/-- A hierarchy of one category, possibly in front of lists. -/
def IsLayered (h : Hierarchy) : Prop :=
  ∃ (c : Category) (inner outer : Hierarchy), h = inner ++ outer ∧
    (∀ t ∈ inner, t.category = c.name) ∧ ∀ t ∈ outer, t.category = Category.list.name

private theorem IsLayered.allButLastLists (h' : h.IsLayered) (hne : h ≠ []) :
    Record.AllButLastLists (Record.runRecords h) := by
  obtain ⟨c, inner, outer, rfl, hinner, houter⟩ := h'
  by_cases hin : inner = []
  · subst hin
    rw [Record.runRecords_of_category hne houter]
    exact Record.allButLastLists_singleton _
  by_cases hout : outer = []
  · subst hout
    rw [List.append_nil] at hne ⊢
    rw [Record.runRecords_of_category hne hinner]
    exact Record.allButLastLists_singleton _
  by_cases hc : c = .list
  · subst hc
    rw [Record.runRecords_of_category hne (List.forall_mem_append.mpr ⟨hinner, houter⟩)]
    exact Record.allButLastLists_singleton _
  · rw [Record.runRecords_append_of_category hin hinner hout houter hc]
    exact Record.allButLastLists_pair.mpr rfl

private theorem isLayered_of_allButLastLists (named : ∀ t ∈ h, ∃ c : Category, t.category = c.name)
    (hlists : Record.AllButLastLists (Record.runRecords h)) : h.IsLayered := by
  have hflat : (Record.runs h).flatten = h.reverse := List.flatten_splitBy _ _
  have hlength := hlists.length_le (Record.isChain_category_runRecords named)
  rw [Record.runRecords, List.length_map] at hlength
  have hcategory : ∀ run ∈ Record.runs h, ∀ t ∈ run, t.category = (Record.categoryOf run).name :=
    fun run hrun t ht => Record.category_eq_categoryOf named hrun ht
  rw [Record.runRecords] at hlists
  -- Runs go from the most general terms to the most specific ones, so the lists come first.
  rcases hruns : Record.runs h with _ | ⟨above, _ | ⟨below, _ | ⟨_, _⟩⟩⟩
  · refine ⟨.any, [], [], ?_, by simp, by simp⟩
    simpa [hruns] using hflat.symm
  · refine ⟨Record.categoryOf above, h, [], (List.append_nil h).symm, fun t ht => ?_, by simp⟩
    have hmem : t ∈ (Record.runs h).flatten := by
      rw [hflat]
      exact List.mem_reverse.mpr ht
    exact hcategory above (by simp [hruns]) t (by simpa [hruns] using hmem)
  · rw [hruns] at hflat hlists
    have habove : Record.categoryOf above = .list := by
      simpa [Record.ofRun_category] using Record.allButLastLists_pair.mp hlists
    refine ⟨Record.categoryOf below, below.reverse, above.reverse, ?_, fun t ht => ?_,
      fun t ht => ?_⟩
    · rw [← List.reverse_append, ← List.reverse_eq_iff, ← hflat]
      simp
    · exact hcategory below (by simp [hruns]) t (List.mem_reverse.mp ht)
    · rw [hcategory above (by simp [hruns]) t (List.mem_reverse.mp ht), habove]
  · simp [hruns] at hlength

end Hierarchy

namespace Record

variable {r : Record Number} {h : Hierarchy}

/-- A level has one below it unless it is the last of its hierarchy. -/
theorem opensInLists_iff_allButLastLists (hr : ofHierarchy h = .ok r) (hne : h ≠ []) :
    r.OpensInLists ↔ ∀ g : Hierarchy, g.IsWithin h → AllButLastLists (runRecords g) := by
  constructor
  · intro hopens g hg q rest hsuffix hrest
    have hwithin :=
      (isWithin_iff hr hne).mpr ⟨g, hg, q :: rest, List.cons_ne_nil q rest, hsuffix, rfl⟩
    obtain ⟨p, rest, rfl⟩ := List.exists_cons_of_ne_nil hrest
    exact (chain_cons_category q _).symm.trans (hopens _ hwithin _ rfl)
  · intro hlists s hs child hchild
    obtain ⟨g, hg, hlevel⟩ := (isWithin_iff hr hne).mp hs
    obtain ⟨run, rest, -, hsuffix, rfl⟩ := hlevel.exists_run
    rw [chain_cons_category]
    exact hlists g hg _ rest hsuffix ((chain_cons_child (ofRun_child _ _)).mp hchild).1

private theorem named_of_ofHierarchy (hr : ofHierarchy h = .ok r) :
    ∀ t ∈ h, ∃ c : Category, t.category = c.name := by
  obtain ⟨ls, hl, -⟩ := Record.ofHierarchy_eq_ok_iff.mp hr
  exact named_of_levels_ok hl

private theorem opensInLists_empty : OpensInLists {} := by
  intro s hs child hchild
  obtain rfl := eq_of_isWithin_empty hs
  contradiction

private theorem isLayered_of_isWithin_nil {g : Hierarchy} (hg : g.IsWithin []) : g.IsLayered := by
  rcases Relation.ReflTransGen.cases_tail hg with rfl | ⟨g', -, run, hrun, -⟩
  · exact ⟨.any, [], [], rfl, by simp, by simp⟩
  · contradiction

/-- Records have one for elements below them only under lists exactly if all hierarchies within the
hierarchy keep to one category but for the lists that they end in. The rule has rules for items only
in arrays exactly if the record is such, and elsewhere rules for items have no effect on a check. -/
theorem opensInLists_iff [Library] (hr : ofHierarchy h = .ok r) :
    (r.OpensInLists ↔ ∀ g : Hierarchy, g.IsWithin h → g.IsLayered) ∧
      ∀ adjust rule, r.rule adjust = .ok rule → (rule.OpensInArrays ↔ r.OpensInLists) ∧
        ∀ s : Rule, s.IsWithin rule → s.kind ≠ .array → ∀ items hooks v path,
          ({ s with items := items }).check hooks v path = s.check hooks v path := by
  refine ⟨?_, fun adjust rule hrule => ⟨opensInArrays_iff hrule, fun s _ hkind items hooks v path =>
    Rule.check_withItems hkind items v path⟩⟩
  by_cases hne : h = []
  · subst hne
    obtain rfl := Except.ok.inj hr
    exact iff_of_true opensInLists_empty fun g => isLayered_of_isWithin_nil
  · rw [opensInLists_iff_allButLastLists hr hne]
    refine forall₂_congr fun g hg => ?_
    obtain ⟨hgne, a, ha, -⟩ := exists_of_isWithin hr hne hg
    exact ⟨Hierarchy.isLayered_of_allButLastLists (named_of_ofHierarchy ha),
      fun hlayered => hlayered.allButLastLists hgne⟩

/-- Lists of words. -/
def listedWords : Hierarchy :=
  [{ id := "word", key := "word", category := "text" },
    { id := "words", key := "words", category := "list" }]

section Program

open Program

theorem opensInLists_listedWords :
    ∃ r child, ofHierarchy listedWords = .ok r ∧ r.child = some child ∧ r.OpensInLists := by
  refine ⟨_, _, rfl, rfl, (opensInLists_iff (h := listedWords) rfl).1.mpr fun g hg => ?_⟩
  have hobjects : ∀ run ∈ runs listedWords, categoryOf run ≠ .object := by
    decide
  rcases Relation.ReflTransGen.cases_tail hg with rfl | ⟨g', -, run, hrun, hobject, -⟩
  · exact ⟨.text, listedWords.take 1, listedWords.drop 1, rfl, by decide, by decide⟩
  · exact absurd hobject (hobjects run hrun)

end Program

/-- Names of up to five characters, as values of any kind. -/
def nameUnderAny : Hierarchy :=
  [{ id := "name", key := "name", category := "text",
     constraints := { length := some ⟨.int 1, .int 5, true, true⟩ } },
    { id := "any", key := Vocabulary.any, category := "any" }]

section Program

open Program

/-- The length is demanded of elements that values of any kind do not have, and never looked at. -/
theorem check_nameUnderAny :
    ∃ r child rule, ofHierarchy nameUnderAny = .ok r ∧ r.category = some .any ∧
      r.child = some child ∧ child.length = some ⟨.int 1, .int 5, true, true⟩ ∧
      r.rule true = .ok rule ∧
      rule.check .standard (.text "far too long") "" = .ok (.text "far too long") := by
  obtain ⟨r, child, hr, hcategory, hchild, hlength, hdirectives, hcasts, hcustoms⟩ : ∃ r child,
      ofHierarchy nameUnderAny = .ok r ∧ r.category = some .any ∧ r.child = some child ∧
      child.length = some ⟨.int 1, .int 5, true, true⟩ ∧ r.directives true = .ok [] ∧
      r.casts = [] ∧ r.customs = [] := ⟨_, _, rfl, rfl, rfl, rfl, rfl, rfl, rfl⟩
  have hok : (r.rule true).isOk = true := by
    cases hr
    decide +kernel
  obtain ⟨rule, hrule⟩ := exists_of_isOk hok
  have hrenders := renders_of_rule hrule
  have hkind : rule.kind = .any := by rw [hrenders.kind, hcategory]; rfl
  have hnone : rule.directives = [] :=
    (Except.ok.inj (hdirectives.symm.trans hrenders.directives)).symm
  refine ⟨r, child, rule, hr, hcategory, hchild, hlength, hrule, ?_⟩
  rw [Rule.check_eq_ok_iff_parts rfl, hkind, hnone, hrenders.casts, hcasts,
    hrenders.customs, hcustoms]
  refine ⟨_, rfl, rfl, by simp, _, ?_, rfl⟩
  simp only [Rule.checkParts, hkind]

end Program

end Record

end TermRules
