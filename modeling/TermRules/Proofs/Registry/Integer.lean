import TermRules.Program
import TermRules.Proofs.Registry.Descriptor
import TermRules.Proofs.Rule.Wholes

/-!
The integer type under a range, from the descriptor to what a check returns. Texts, doubles and
integers all come out as integers of the range, as long as its ends are whole or infinite and it has
a member. Whether the limit in a rejection can be written out is not looked at.
-/

namespace TermRules

namespace Registry

variable {maxDepth : Int} {types : Hierarchy} {i : Interval Number} {adjust : Bool} {rule : Rule}

def numericTerm : Term :=
  standardTerm Vocabulary.numeric .numeric Vocabulary.root ["castNumber"]

def integerTerm : Term :=
  standardTerm Vocabulary.integer .numeric Vocabulary.numeric [] ["customInt"]

/-- The integer type is below that of numbers. -/
theorem eq_of_resolve_integer (h : (standard maxDepth).resolve Vocabulary.integer = .ok types) :
    types = [integerTerm, numericTerm] := by
  have hinteger : (standard maxDepth).ofKey? Vocabulary.integer = some integerTerm := by
    rw [ofKey?, standard_terms]
    rfl
  have hnumeric : (standard maxDepth).ofKey? Vocabulary.numeric = some numericTerm := by
    rw [ofKey?, standard_terms]
    rfl
  obtain ⟨t, hlookup, hclimbs, -⟩ := resolve_eq_ok_iff.mp h
  obtain rfl := Option.some.inj ((lookup_of_ofKey? hinteger).symm.trans hlookup)
  exact hclimbs.unique (.link rfl (by decide) (lookup_of_ofKey? hnumeric) (.last rfl))

/-- Integers between the ends of the interval. -/
def integersIn (i : Interval Number) : Options where
  type := some Vocabulary.integer
  constraints := { range := some i }

/-- The record of integers in the interval. -/
def integerRecord (i : Interval Number) : Record Number where
  category := some .numeric
  range := some i.normalize
  marks := { integer := true }
  casts := [Vocabulary.hook "castNumber"]
  customs := [Vocabulary.hook "customInt"]

private theorem ruleOf_integersIn
    (hrule : (standard maxDepth).ruleOf adjust (integersIn i) = .ok rule) :
    (integerRecord i).rule adjust = .ok rule := by
  obtain ⟨h, record, hh, hrecord, hrule⟩ := ruleOf_eq_ok hrule
  obtain ⟨type, container, types, inner, outer, htype, hcontainer, htypes, hinner, houter, rfl⟩ :=
    descriptorHierarchy_eq_ok hh
  obtain rfl := Option.some.inj htype
  obtain rfl : none = container := Except.ok.inj hcontainer
  obtain rfl := eq_of_resolve_integer htypes
  obtain rfl := Except.ok.inj hinner
  obtain rfl := Except.ok.inj houter
  obtain rfl : integerRecord i = record := Except.ok.inj hrecord
  exact hrule

private theorem isOfWholes_of_ruleOf
    (hrule : (standard maxDepth).ruleOf adjust (integersIn i) = .ok rule) :
    ∃ bounds, i.normalize.directives .range adjust = .ok bounds ∧ rule.IsOfWholes bounds := by
  obtain ⟨flat, hkind, hcasts, hcustoms, hds⟩ :=
    Record.rule_eq_ok (r := integerRecord i) rfl rfl rfl (ruleOf_integersIn hrule)
  obtain ⟨_, bounds, _, hlength, hbounds, hsize, hall⟩ := Record.directives_eq_ok hds
  cases hlength
  cases hsize
  have hdirectives : rule.directives = bounds ++ [⟨.integer, .null⟩] := by
    simpa [integerRecord, Marks.directives] using hall
  exact ⟨bounds, hbounds, flat, hkind, hdirectives, hcasts, hcustoms⟩

/-- A check for integers in a range returns just the integers of the range, and returns one exactly
for the texts and numbers that are cast to a number equal to it. It rejects everything else. -/
theorem check_integersIn_iff [Library]
    (hrule : (standard maxDepth).ruleOf true (integersIn i) = .ok rule)
    (hlower : i.lower.IsWholeBound) (hupper : i.upper.IsWholeBound) {m : Number}
    (hm : i.normalize.Contains m) {v : Value} (hnull : v.isNull = false) (path : String) :
    (∀ w, rule.check .standard v path = .ok w ↔
      ∃ n : ℤ, w = .int n ∧ i.normalize.Contains (.int n) ∧
      ((∀ b, v ≠ .bool b) ∧ (∀ items, v ≠ .list items) ∧ ∀ es, v ≠ .mapping es) ∧
      ∃ x, Cast.toNumber v path = .ok (.ofNumber x) ∧ x.same (.int n) = true) ∧
    ∀ f, rule.check .standard v path = .error f → f.IsRejection := by
  obtain ⟨bounds, hbounds, hwholes⟩ := isOfWholes_of_ruleOf hrule
  obtain ⟨hlower, hupper⟩ := Interval.normalize_bounds (P := Number.IsWholeBound) ⟨hlower, hupper⟩
  constructor
  · intro w
    rw [hwholes.check_eq_ok_iff hbounds hlower hupper hm hnull]
    refine exists_congr fun n => and_congr_right fun _ => and_congr_right fun _ => ?_
    refine ⟨fun h => ⟨?_, h⟩, And.right⟩
    obtain ⟨x, hcast, -⟩ := h
    exact kinds_of_toNumber hcast
  · intro f hf
    have hlands := hwholes.lands_check hbounds v path
    rwa [hf] at hlands

/-- The integers below ten, with the ends in reverse. -/
def belowTen : Interval Number :=
  ⟨.int 10, .double (.infinite true), false, true⟩

section Program

open Program

theorem check_integersIn_belowTen :
    ∃ rule, (standard 10).ruleOf true (integersIn belowTen) = .ok rule ∧
      belowTen.lower.IsWholeBound ∧ belowTen.upper.IsWholeBound ∧
      belowTen.normalize.Contains (.int 0) ∧
      rule.check .standard (.text " +7 ") "" = .ok (.int 7) := by
  obtain ⟨rule, hrule⟩ : ∃ rule, (standard 10).ruleOf true (integersIn belowTen) = .ok rule :=
    exists_of_isOk (by decide +kernel)
  have hzero : belowTen.normalize.Contains (.int 0) := by decide +kernel
  have hseven : belowTen.normalize.Contains (.int 7) := by decide +kernel
  refine ⟨rule, hrule, trivial, trivial, hzero, ?_⟩
  refine ((check_integersIn_iff hrule trivial trivial hzero (v := .text " +7 ") rfl "").1 _).mpr
    ⟨7, rfl, hseven, ⟨nofun, nofun, nofun⟩, .int 7, rfl, by decide⟩

end Program

end Registry

end TermRules
