import TermRules.Program
import TermRules.Proofs.Record.Alike
import TermRules.Proofs.Record.Override
import TermRules.Proofs.Registry.Container

/-!
Types under options. Where the terms of a type are all texts, all numbers or all lists, what options
demand takes the place of what the most general of them demands. The others keep their say, so that
options widen a type as far as they widen that one term.
-/

namespace TermRules

namespace Record

variable {c : Category}

/-- Only objects have a use for axes. -/
theorem ofRun_withAxes (hc : c ≠ .object) (run : List Term) (t : Term)
    (keys values : Option Hierarchy) :
    ofRun c (run ++ [{ t with keyAxis := keys, valueAxis := values }]) = ofRun c (run ++ [t]) := by
  rw [← absorb_ofRun (axesOf_describes_nothing hc _), ← Term.setAxes, absorb_setAxes,
    absorb_ofRun (axesOf_describes_nothing hc t)]

end Record

namespace Registry

variable {r : Registry} {o : Options} {options : Value} {type : String} {types axed : Hierarchy}
  {m : Measure}

private theorem ofHierarchy_withAxes {c : Category} (hc : c ≠ .object)
    (hcategory : ∀ t ∈ types, t.category = c.name) (h : r.withAxes o types = .ok axed) :
    Record.ofHierarchy axed = Record.ofHierarchy types := by
  cases types with
  | nil =>
      cases h
      rfl
  | cons t general =>
      obtain ⟨keys, -, h⟩ := bind_eq_ok_iff.mp h
      obtain ⟨values, -, h⟩ := bind_eq_ok_iff.mp h
      obtain rfl := pure_eq_ok_iff.mp h
      have haxed : ∀ u ∈ { t with keyAxis := keys, valueAxis := values } :: general,
          u.category = c.name := by
        simpa using hcategory
      rw [Record.ofHierarchy_of_category hc (List.cons_ne_nil _ _) haxed,
        Record.ofHierarchy_of_category hc (List.cons_ne_nil _ _) hcategory, List.reverse_cons,
        List.reverse_cons, Record.ofRun_withAxes hc]

theorem compileSource_of_read [Readable Options] [Readable Term]
    (htypes : r.resolve type = .ok types) (hread : options.read = .found o) :
    r.compileSource options (.text type) = compile (types.inject o.constraints) := by
  have hne : types.isEmpty = false := List.isEmpty_eq_false_iff.mpr (ne_nil_of_resolve htypes)
  have hinject : types.injectValue options = .ok (types.inject o.constraints) := by
    cases options with
    | mapping entries =>
        simp only [Hierarchy.injectValue, Value.isNull, hne, hread]
        rfl
    | scalar _ | list _ => contradiction
  rw [compileSource, hierarchyOf, htypes]
  change types.injectValue options >>= compile = _
  rw [hinject]
  rfl

/-- A descriptor in scalar format says the same as its type under its options, but for the object
type, which takes no options and could be replaced by a type of texts, of numbers or of lists. -/
theorem compileOptions_of_category {c : Category} (hc : c ≠ .object)
    (htypes : r.resolve type = .ok types) (hcategory : ∀ t ∈ types, t.category = c.name)
    (ho : o.type = some type) (hformat : containerOf type o.format = .ok none) :
    (isObject types = false → r.compileOptions o = compile (types.inject o.constraints)) ∧
      (isObject types = true → ∀ record, r.compileOptions o = .ok record →
        compile types = .ok record) := by
  rw [compileOptions, descriptorHierarchy_scalar ho hformat, htypes]
  change (_ → r.elementHierarchy o types >>= compile = _) ∧
    (_ → ∀ record, r.elementHierarchy o types >>= compile = _ → _)
  constructor
  · intro hobject
    rw [elementHierarchy, hobject]
    rfl
  · intro hobject record hrecord
    rw [elementHierarchy, if_pos hobject] at hrecord
    obtain ⟨axed, haxed, hrecord⟩ := bind_eq_ok_iff.mp hrecord
    rwa [compile, ofHierarchy_withAxes hc hcategory haxed] at hrecord

theorem compile_of_category {c : Category} {h : Hierarchy} (hc : c ≠ .object) (hne : h ≠ [])
    (hcategory : ∀ t ∈ h, t.category = c.name) :
    compile h = .ok (Record.ofRun c h.reverse) :=
  mapError_eq_ok_iff.mpr (Record.ofHierarchy_of_category hc hne hcategory)

section Program

open Program

end Program

end Registry

end TermRules
