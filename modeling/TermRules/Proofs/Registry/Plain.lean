import TermRules.Proofs.Record.Container
import TermRules.Proofs.Registry.Taxonomy
import TermRules.Proofs.Rule.Settling

/-!
The rules of plain hierarchies, of objects with plain axes and of lists, apart from the descriptors
that ask for them. A rule for the items, the keys or the values of another is the rule of a type
that is no container, and settles what it checks.
-/

namespace TermRules

open Registry (standardCasts standardCustoms)

namespace Record

variable {adjust : Bool} {r : Record Number} {rule : Rule}

/-- The record for keys that a term is taken in with is one of texts. -/
theorem axesOf_key_category {t : Term} {c : Category} {axes : Axes}
    (h : axesOf t = .ok (c, axes)) {k : Record Number} (hk : axes.keys = some k) :
    k.category = some .text := by
  obtain ⟨id, key, category, parent, constraints, casts, customs, keyAxis, valueAxis⟩ := t
  cases hname : Category.ofName? category with
  | none => simp [axesOf, hname] at h
  | some d =>
      cases d with
      | object =>
          simp only [axesOf, hname] at h
          obtain ⟨found, -, h⟩ := bind_eq_ok_iff.mp h
          cases found with
          | none =>
              obtain ⟨keys, hkeys, h⟩ := bind_eq_ok_iff.mp h
              obtain ⟨values, -, h⟩ := bind_eq_ok_iff.mp h
              cases hkeys
              cases pure_eq_ok_iff.mp h
              contradiction
          | some r =>
              obtain ⟨keys, hkeys, h⟩ := bind_eq_ok_iff.mp h
              obtain ⟨values, -, h⟩ := bind_eq_ok_iff.mp h
              obtain ⟨s, hs, rfl⟩ := map_eq_ok_iff.mp hkeys
              cases pure_eq_ok_iff.mp h
              obtain rfl := Option.some.inj hk
              exact (Record.requireText_eq_ok_iff.mp hs).1
      | any | boolean | text | numeric | list | struct =>
          simp only [axesOf, hname, Except.ok.injEq, Prod.mk.injEq] at h
          obtain ⟨-, rfl⟩ := h
          contradiction

end Record

namespace Record.Renders

variable {c : Category} {h : Hierarchy} {r : Record Number} {adjust : Bool} {rule : Rule}

/-- The rule of a run of terms, on its own or with a level below it, runs the hooks of the terms. -/
theorem hooks_subset (hrenders : r.Renders adjust rule) (hruns : ∀ t ∈ h, t.RunsStandard c)
    (hcasts : r.casts = (ofRun c h.reverse).casts)
    (hcustoms : r.customs = (ofRun c h.reverse).customs) :
    rule.casts ⊆ standardCasts c ∧ rule.customs ⊆ standardCustoms c := by
  rw [hrenders.casts, hrenders.customs, hcasts, hcustoms]
  constructor
  · intro name hname
    simp only [ofRun_casts, List.mem_eraseDups, List.mem_flatMap, List.mem_reverse] at hname
    obtain ⟨t, ht, hmem⟩ := hname
    exact (hruns t ht).casts hmem
  · intro name hname
    simp only [ofRun_customs, List.mem_eraseDups, List.mem_flatMap, List.mem_reverse] at hname
    obtain ⟨t, ht, hmem⟩ := hname
    exact (hruns t ht).customs hmem

private theorem isKeyed (hrenders : (ofRun .object h.reverse).Renders adjust rule)
    (hruns : ∀ t ∈ h, t.RunsStandard .object) : rule.IsKeyed := by
  have hds : Except.ok [] = Except.ok rule.directives := hrenders.directives
  exact ⟨hrenders.kind, .of_subset_nil (hrenders.hooks_subset hruns rfl rfl),
    (Except.ok.inj hds).symm⟩

end Record.Renders

namespace Hierarchy.IsPlain

variable {c : Category} {h : Hierarchy} {adjust : Bool} {r : Record Number} {rule : Rule}

theorem eq_ofRun (hplain : IsPlain c h) (hr : Record.ofHierarchy h = .ok r) :
    r = Record.ofRun c h.reverse :=
  Record.eq_ofRun_of_category hr hplain.nonempty hplain.category

private theorem axes_eq_none (hplain : IsPlain c h) :
    (Record.ofRun c h.reverse).keyRecord = none ∧
      (Record.ofRun c h.reverse).valueRecord = none := by
  cases c with
  | object =>
      have hkeys : ∀ t ∈ h, Record.axisRecord t.keyAxis = none := fun t ht => by
        rw [(hplain.axes t ht).1]
        rfl
      have hvalues : ∀ t ∈ h, Record.axisRecord t.valueAxis = none := fun t ht => by
        rw [(hplain.axes t ht).2]
        rfl
      simp only [Record.ofRun, Record.objectOfRun, Record.lastSet, List.reverse_reverse,
        List.findSome?_eq_none_iff]
      exact ⟨hkeys, hvalues⟩
  | any | boolean | text | numeric | list | struct => exact ⟨rfl, rfl⟩

theorem flat (hplain : IsPlain c h) (hrule : (Record.ofRun c h.reverse).rule adjust = .ok rule) :
    rule.IsFlat := by
  obtain ⟨hkeys, hvalues⟩ := hplain.axes_eq_none
  exact (Record.rule_eq_ok (Record.ofRun_child c _) hkeys hvalues hrule).1

private theorem settles [Library] (hplain : IsPlain c h)
    (hrule : (Record.ofRun c h.reverse).rule adjust = .ok rule) : rule.Settles := by
  have hflat := hplain.flat hrule
  have hrenders := Record.renders_of_rule hrule
  have hhooks := hrenders.hooks_subset hplain.runs rfl rfl
  cases c with
  | any | list | struct | object =>
      have hookless : rule.IsHookless := .of_subset_nil hhooks
      exact hookless.settles hflat
  | boolean =>
      exact Rule.settles_boolean hflat hrenders.kind hhooks.1 (List.subset_nil.mp hhooks.2)
  | text =>
      have hstands := Rule.standsFor_of_rule (.inl rfl) hrule
      exact hstands.settles_text hhooks fun u hu => (hplain.runs u hu).hexadecimal
  | numeric =>
      have hstands := Rule.standsFor_of_rule (.inr (.inl rfl)) hrule
      exact hstands.settles_numeric hhooks

/-- The rule of a list container, whatever its items are. -/
theorem isListing (hplain : IsPlain .list h) {child : Option (Record Number)}
    (hrule : Record.rule adjust { Record.ofRun .list h.reverse with child := child } = .ok rule) :
    rule.IsListing ∧
      (⟨.unique, .null⟩ ∈ rule.directives ↔ ∃ t ∈ h, t.key = Vocabulary.set) := by
  have hrenders := Record.renders_of_rule hrule
  obtain ⟨bounds, hbounds, hds⟩ := Record.ofRun_directives_eq_ok (c := .list) (.inr (.inr rfl))
    (show (Record.ofRun .list h.reverse).directives adjust = .ok rule.directives from
      hrenders.directives)
  have hnames := Record.bounds_of_boundsOf (Record.lawful_boundNames .list h.reverse) hbounds
  have hdemands : (Record.ofRun .list h.reverse).demands =
      if Record.hasKey Vocabulary.set h.reverse then [⟨.unique, .null⟩] else [] := by
    cases hset : Record.hasKey Vocabulary.set h.reverse <;>
      simp [Record.demands, Record.ofRun, Record.listOfRun, Marks.directives, hset]
  have hkey : Record.hasKey Vocabulary.set h.reverse = true ↔
      ∃ t ∈ h, t.key = Vocabulary.set := by
    simp [hasKey_eq_true_iff]
  have hunique : ⟨.unique, .null⟩ ∉ bounds := fun hmem => by
    have hcount := (hnames _ hmem).2
    contradiction
  have hookless : rule.IsHookless := .of_subset_nil (hrenders.hooks_subset hplain.runs rfl rfl)
  constructor
  · refine ⟨hrenders.kind, hookless, fun d hd => ?_⟩
    rw [hds, hdemands] at hd
    rcases List.mem_append.mp hd with hd | hd
    · exact .inl (hnames d hd)
    · split at hd
      · exact .inr (List.mem_singleton.mp hd)
      · simp at hd
  · rw [hds, hdemands, ← hkey]
    split <;> simp_all

end Hierarchy.IsPlain

/-- An object term whose axes are plain. -/
structure Term.HasPlainAxes (t : Term) : Prop where
  runs : t.RunsStandard .object
  axes : ∀ axis, t.keyAxis = some axis ∨ t.valueAxis = some axis → ∃ c, Hierarchy.IsPlain c axis

/-- The rule of a type that is no container. -/
structure Rule.IsElement [Library] (adjust : Bool) (rule : Rule) : Prop where
  settles : rule.Settles
  keyed : rule.kind = .object → rule.IsKeyed ∧ ∀ s, rule.keys = some s →
    ∃ chain, Hierarchy.IsPlain .text chain ∧ (Record.ofRun .text chain.reverse).rule adjust = .ok s

section Elements

variable {c : Category} {h : Hierarchy} {t : Term} {adjust : Bool} {rule : Rule}

theorem Hierarchy.IsPlain.isElement [Library] (hplain : IsPlain c h)
    (hrule : (Record.ofRun c h.reverse).rule adjust = .ok rule) : rule.IsElement adjust where
  settles := hplain.settles hrule
  keyed hkind := by
    have hrenders := Record.renders_of_rule hrule
    have hflat := hplain.flat hrule
    obtain rfl : c = .object := by
      have hobject : c.kind = .object := hrenders.kind.symm.trans hkind
      cases c <;> first | rfl | contradiction
    exact ⟨hrenders.isKeyed hplain.runs, fun s hs => by simp [hflat.keys] at hs⟩

private theorem Term.HasPlainAxes.exists_run (ht : t.HasPlainAxes) {axis : Option Hierarchy}
    (haxis : t.keyAxis = axis ∨ t.valueAxis = axis) {s : Rule}
    (h : Record.partRule adjust (Record.axisRecord axis) = .ok (some s)) :
    ∃ c chain, Hierarchy.IsPlain c chain ∧
      Record.axisRecord axis = some (Record.ofRun c chain.reverse) ∧
      (Record.ofRun c chain.reverse).rule adjust = .ok s := by
  obtain ⟨r, hr, hrule⟩ := Record.exists_of_partRule h
  obtain ⟨terms, rfl, -, hterms⟩ := Record.axisRecord_eq_some_iff.mp hr
  obtain ⟨c, hplain⟩ := ht.axes terms haxis
  obtain rfl := hplain.eq_ofRun hterms
  exact ⟨c, terms, hplain, hr, hrule⟩

theorem Term.HasPlainAxes.isElement [Library] (ht : t.HasPlainAxes) {axes : Record.Axes}
    (haxes : Record.axesOf t = .ok (c, axes))
    (hrule : (Record.ofRun .object [t]).rule adjust = .ok rule) : rule.IsElement adjust := by
  have hrenders := Record.renders_of_rule hrule
  have hkeyed : rule.IsKeyed := Record.Renders.isKeyed (h := [t]) hrenders (by simpa using ht.runs)
  have hkeys : Record.partRule adjust (Record.axisRecord t.keyAxis) = .ok rule.keys := by
    rw [← Record.lastSet_singleton fun t => Record.axisRecord t.keyAxis]
    exact hrenders.keys
  have hvalues : Record.partRule adjust (Record.axisRecord t.valueAxis) = .ok rule.values := by
    rw [← Record.lastSet_singleton fun t => Record.axisRecord t.valueAxis]
    exact hrenders.values
  refine ⟨hkeyed.settles (fun s hs => ?_) (fun s hs => ?_), fun _ => ⟨hkeyed, fun s hs => ?_⟩⟩
  · obtain ⟨d, chain, hplain, -, hs⟩ := ht.exists_run (.inl rfl) (hs ▸ hkeys)
    exact hplain.settles hs
  · obtain ⟨d, chain, hplain, -, hs⟩ := ht.exists_run (.inr rfl) (hs ▸ hvalues)
    exact hplain.settles hs
  · obtain ⟨d, chain, hplain, hrecord, hs⟩ := ht.exists_run (.inl rfl) (hs ▸ hkeys)
    obtain ⟨hname, hof, -⟩ := Record.axesOf_ok haxes
    have hobject : c = .object := Category.name_injective (hname.symm.trans ht.runs.category)
    have hkey : axes.keys = some (Record.ofRun d chain.reverse) := by
      rw [hof hobject, hrecord]
    obtain rfl : d = .text := Option.some.inj (Record.axesOf_key_category haxes hkey)
    exact ⟨chain, hplain, hs⟩

end Elements

end TermRules
