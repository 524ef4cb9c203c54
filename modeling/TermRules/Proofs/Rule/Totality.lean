import TermRules.Proofs.Record.Override
import TermRules.Proofs.Rule.Ends
import TermRules.Proofs.Rule.Nesting

/-!
Which records have a rule. Before an end of an interval becomes a bound it is asked whether it is
infinite, and whole numbers beyond the doubles cannot be asked that. Nothing else stops a record, at
any depth, from being rendered.
-/

namespace TermRules

namespace Number

/-- A whole number that no double stands for, not even by rounding. -/
def BeyondDoubles (x : Number) : Prop :=
  ∃ n : ℤ, x = .int n ∧ doubleLimit ≤ n.natAbs

private theorem isInfinite?_eq_none_iff {x : Number} : x.isInfinite? = none ↔ x.BeyondDoubles := by
  cases x with
  | int n => simp [isInfinite?, BeyondDoubles]
  | double d => cases d <;> simp [isInfinite?, BeyondDoubles]

end Number

namespace Interval

/-- The interval is a single point, or it can be asked of both ends whether they are infinite. -/
def IsRenderable (i : Interval Number) : Prop :=
  i.lower.same i.upper = true ∨ ¬ i.lower.BeyondDoubles ∧ ¬ i.upper.BeyondDoubles

private theorem lands_endDirective (inclusive strict : DirectiveName) (isStrict : Bool) (step : Int)
    (bound : Number) (isIncluded : Bool) :
    Lands (fun cause => cause = .beyondDouble ∧ bound.BeyondDoubles)
    (fun _ => ¬ bound.BeyondDoubles)
      (endDirective inclusive strict isStrict step bound isIncluded) := by
  rw [← Number.isInfinite?_eq_none_iff]
  cases hbound : bound.isInfinite? with
  | none =>
      simp only [endDirective, Bound.isInfinite, hbound]
      exact ⟨rfl, trivial⟩
  | some infinite =>
      obtain ⟨ds, hds⟩ := exists_endDirective (by rw [hbound]; simp) inclusive strict isStrict step
        isIncluded
      rw [hds]
      simp [Lands]

private theorem lands_directives (names : BoundNames) (adjust : Bool) (i : Interval Number) :
    Lands (fun cause => cause = .beyondDouble ∧ ¬ i.IsRenderable) (fun _ => i.IsRenderable)
      (i.directives names adjust) := by
  rw [directives]
  split
  · rename_i hpoint
    exact .inl hpoint
  · rename_i hpoint
    have hends : i.IsRenderable ↔ ¬ i.lower.BeyondDoubles ∧ ¬ i.upper.BeyondDoubles :=
      or_iff_right hpoint
    have hlower : i.lower.BeyondDoubles → ¬ i.IsRenderable :=
      fun hbeyond h => (hends.mp h).1 hbeyond
    have hupper : i.upper.BeyondDoubles → ¬ i.IsRenderable :=
      fun hbeyond h => (hends.mp h).2 hbeyond
    exact Lands.bind ((lands_endDirective _ _ _ _ i.lower _).mono fun _ => And.imp_right hlower)
      fun _ hlow =>
      Lands.bind ((lands_endDirective _ _ _ _ i.upper _).mono fun _ => And.imp_right hupper)
        fun _ hhigh =>
      hends.mpr ⟨hlow, hhigh⟩

end Interval

namespace Record

variable {adjust : Bool} {r s q : Record Number} {h : Hierarchy}

private theorem sizeOf_lt_of_isPartOf (hs : s.IsPartOf r) : sizeOf s < sizeOf r := by
  obtain ⟨category, length, regex, range, decimals, size, marks, target, casts, customs, child,
    keyRecord, valueRecord⟩ := r
  rcases hs with hs | hs | hs <;>
  · dsimp only at hs
    subst hs
    simp only [mk.sizeOf_spec, Option.some.sizeOf_spec]
    omega

/-- What a record has whenever its parts have it, every record has. -/
theorem induct {P : Record Number → Prop}
    (step : ∀ r, (∀ s : Record Number, s.IsPartOf r → P s) → P r) (r : Record Number) : P r :=
  step r fun s hs =>
    have := sizeOf_lt_of_isPartOf hs
    induct step s
termination_by sizeOf r

/-- The intervals of the record by itself can be rendered. -/
def HasRenderableEnds (r : Record Number) : Prop :=
  ∀ m i, r.interval m = some i → i.IsRenderable

/-- All intervals in the tree of the record can be rendered. -/
def IsRenderable (r : Record Number) : Prop :=
  ∀ s : Record Number, s.IsWithin r → s.HasRenderableEnds

private theorem isRenderable_iff : r.IsRenderable ↔
    r.HasRenderableEnds ∧ ∀ s : Record Number, s.IsPartOf r → s.IsRenderable := by
  constructor
  · exact fun h => ⟨h r .refl, fun s hs q hq => h q (hq.tail hs)⟩
  · rintro ⟨hends, hparts⟩ s hs
    rcases Relation.ReflTransGen.cases_tail hs with rfl | ⟨q, hq, hpart⟩
    · exact hends
    · exact hparts q hpart s hq

private theorem lands_boundsOf (names : BoundNames) (o : Option (Interval Number)) :
    Lands (fun cause => cause = .beyondDouble ∧ ∃ i, o = some i ∧ ¬ i.IsRenderable)
      (fun _ => ∀ i, o = some i → i.IsRenderable) (boundsOf names adjust o) := by
  cases o with
  | none => exact nofun
  | some i =>
      simp only [Option.some.injEq, exists_eq_left', forall_eq']
      exact i.lands_directives names adjust

private theorem lands_directives (r : Record Number) :
    Lands (fun cause => cause = .beyondDouble ∧ ¬ r.HasRenderableEnds)
    (fun _ => r.HasRenderableEnds) (r.directives adjust) := by
  have hfails (m : Measure) (cause : Misuse)
      (h : cause = .beyondDouble ∧ ∃ i, r.interval m = some i ∧ ¬ i.IsRenderable) :
      cause = .beyondDouble ∧ ¬ r.HasRenderableEnds := by
    obtain ⟨hcause, i, hi, hnot⟩ := h
    exact ⟨hcause, fun hr => hnot (hr m i hi)⟩
  refine Lands.bind ((lands_boundsOf _ r.length).mono (hfails .length)) fun _ hlength =>
    Lands.bind ((lands_boundsOf _ r.range).mono (hfails .range)) fun _ hrange =>
    Lands.bind ((lands_boundsOf _ r.size).mono (hfails .size)) fun _ hsize m => ?_
  cases m
  exacts [hlength, hrange, hsize]

private theorem lands_ownRule (r : Record Number) :
    Lands (fun cause => cause = .beyondDouble ∧ ¬ r.HasRenderableEnds)
    (fun _ => r.HasRenderableEnds) (ownRule adjust r) :=
  Lands.bind (lands_directives r) fun _ hends => hends

private theorem lands_partRule {part : Option (Record Number)} (h : ∀ q, part = some q →
      Lands (fun cause => cause = .beyondDouble ∧ ¬ q.IsRenderable) (fun _ => q.IsRenderable)
        (q.rule adjust)) :
    Lands (fun cause => cause = .beyondDouble ∧ ∃ q, part = some q ∧ ¬ q.IsRenderable)
      (fun _ => ∀ q, part = some q → q.IsRenderable) (partRule adjust part) := by
  cases part with
  | none => exact nofun
  | some q =>
      simp only [Option.some.injEq, exists_eq_left', forall_eq'] at h ⊢
      exact Lands.bind h fun _ hq => hq

/-- A record has a rule exactly if it can be rendered, and otherwise the failure is about a number
beyond the doubles. -/
theorem lands_rule (adjust : Bool) (r : Record Number) :
    Lands (fun cause => cause = .beyondDouble ∧ ¬ r.IsRenderable) (fun _ => r.IsRenderable)
      (r.rule adjust) := by
  induction r using induct with
  | step r ih =>
      have hfails {part : Option (Record Number)} (hpart : ∀ q, part = some q → q.IsPartOf r)
          (cause : Misuse) (h : cause = .beyondDouble ∧ ∃ q, part = some q ∧ ¬ q.IsRenderable) :
          cause = .beyondDouble ∧ ¬ r.IsRenderable := by
        obtain ⟨hcause, q, hq, hnot⟩ := h
        exact ⟨hcause, fun hr => hnot ((isRenderable_iff.mp hr).2 q (hpart q hq))⟩
      have hown : Lands (fun cause => cause = .beyondDouble ∧ ¬ r.IsRenderable)
          (fun _ => r.HasRenderableEnds)
          (ownRule adjust { r with child := none, keyRecord := none, valueRecord := none }) :=
        (lands_ownRule _).mono fun cause hcause =>
          ⟨hcause.1, fun hr => hcause.2 (isRenderable_iff.mp hr).1⟩
      have hitems := (lands_partRule fun q hq => ih q (.inl hq)).mono (hfails fun q => .inl)
      have hkeys := (lands_partRule fun q hq => ih q (.inr (.inl hq))).mono
        (hfails fun q hq => .inr (.inl hq))
      have hvalues := (lands_partRule fun q hq => ih q (.inr (.inr hq))).mono
        (hfails fun q hq => .inr (.inr hq))
      -- The rule of a record is defined field by field, and only such a record unfolds to
      -- its stages.
      obtain ⟨category, length, regex, range, decimals, size, marks, target, casts, customs, child,
        keyRecord, valueRecord⟩ := r
      refine Lands.bind hown fun _ hends => Lands.bind hitems fun _ hitems =>
        Lands.bind hkeys fun _ hkeys => Lands.bind hvalues fun _ hvalues =>
        isRenderable_iff.mpr ⟨hends, fun q hq => ?_⟩
      rcases hq with hq | hq | hq
      exacts [hitems q hq, hkeys q hq, hvalues q hq]

section Terms

variable {c : Category} {run : List Term} {m : Measure} {k : Interval Number}

/-- What both ends of the intervals of a run have, the ends of the merged interval have as well. -/
theorem ofRun_interval_bounds {P : Number → Prop}
    (hrun : ∀ t ∈ run, ∀ m i, t.constraints.interval m = some i → P i.lower ∧ P i.upper)
    (hk : (ofRun c run).interval m = some k) : P k.lower ∧ P k.upper := by
  by_cases hm : m.category = c
  · subst hm
    have hmerge : (ofRun m.category run).interval m =
        Interval.mergeAll (run.map fun t => t.constraints.interval m) := by
      cases m <;> rfl
    rw [hmerge] at hk
    refine Interval.mergeAll_bounds (fun i hi => ?_) k hk
    obtain ⟨t, ht, hi⟩ := List.mem_map.mp hi
    exact hrun t ht m i hi
  · have hnone : (ofRun c run).interval m = none := by
      cases c <;> cases m <;> first | rfl | exact absurd rfl hm
    rw [hnone] at hk
    contradiction

private theorem chain_cons_interval (q : Record Number) (rest : List (Record Number))
    (m : Measure) : (chain (q :: rest)).interval m = q.interval m := by
  cases rest <;> cases m <;> rfl

/-- Terms whose intervals keep to the doubles leave records that do. -/
theorem isRenderable_of_terms (hr : ofHierarchy h = .ok r)
    (hterms : ∀ g : Hierarchy, g.IsWithin h → ∀ t ∈ g, ∀ m i, t.constraints.interval m = some i →
      ¬ i.lower.BeyondDoubles ∧ ¬ i.upper.BeyondDoubles) : r.IsRenderable := by
  intro s hs m k hk
  by_cases hne : h = []
  · subst hne
    obtain rfl := Except.ok.inj hr
    obtain rfl := eq_of_isWithin_empty hs
    cases m <;> contradiction
  · obtain ⟨g, hg, hlevel⟩ := (isWithin_iff hr hne).mp hs
    obtain ⟨run, rest, hrun, -, rfl⟩ := hlevel.exists_run
    rw [chain_cons_interval] at hk
    have hends := ofRun_interval_bounds (P := fun x => ¬ x.BeyondDoubles)
      (fun t ht => hterms g hg t (mem_of_mem_run hrun ht)) hk
    exact .inr hends

end Terms

/-- The record of a hierarchy has a rule exactly if no interval in its tree has two different ends
of which one is beyond the doubles, and nothing but such an end stops it. In particular it has one
if no term of the hierarchies within the hierarchy has such an end. -/
theorem exists_rule_iff (hr : ofHierarchy h = .ok r) (adjust : Bool) :
    ((∃ rule, r.rule adjust = .ok rule) ↔ ∀ s : Record Number, s.IsWithin r → ∀ m i,
      s.interval m = some i → i.lower.same i.upper = true ∨
        ¬ i.lower.BeyondDoubles ∧ ¬ i.upper.BeyondDoubles) ∧
    (∀ cause, r.rule adjust = .error cause → cause = .beyondDouble) ∧
    ((∀ g : Hierarchy, g.IsWithin h → ∀ t ∈ g, ∀ m i, t.constraints.interval m = some i →
      ¬ i.lower.BeyondDoubles ∧ ¬ i.upper.BeyondDoubles) → ∃ rule, r.rule adjust = .ok rule) := by
  have hlands := lands_rule adjust r
  have hiff : (∃ rule, r.rule adjust = .ok rule) ↔ r.IsRenderable := by
    cases hrule : r.rule adjust with
    | ok rule =>
        rw [hrule] at hlands
        exact iff_of_true ⟨rule, rfl⟩ hlands
    | error cause =>
        rw [hrule] at hlands
        exact iff_of_false nofun hlands.2
  refine ⟨hiff, fun cause hcause => ?_, fun hterms => hiff.mpr (isRenderable_of_terms hr hterms)⟩
  rw [hcause] at hlands
  exact hlands.1

private theorem ofHierarchy_numbersBetween (key : String) (lower upper : ℤ) :
    ∃ r, ofHierarchy [numbersBetween key lower upper] = .ok r ∧
    (∀ s : Record Number, ¬ s.IsPartOf r) ∧ ∀ m, r.interval m =
        if m = .range then some (Interval.normalize ⟨.int lower, .int upper, true, true⟩)
        else none := by
  refine ⟨_, rfl, ?_, fun m => ?_⟩
  · rintro s (h | h | h) <;> contradiction
  · cases m <;> rfl

/-- An integer beyond the doubles. -/
def huge : ℤ := 10 ^ 400

private theorem beyondDoubles_huge : (Number.int huge).BeyondDoubles :=
  ⟨huge, rfl, by decide +kernel⟩

/-- A single point is asked nothing. -/
theorem exists_rule_of_huge_point : ∃ r rule,
    ofHierarchy [numbersBetween "huge" huge huge] = .ok r ∧ r.rule true = .ok rule := by
  obtain ⟨r, hr, hflat, hinterval⟩ := ofHierarchy_numbersBetween "huge" huge huge
  obtain ⟨rule, hrule⟩ := (exists_rule_iff hr true).1.mpr fun s hs m i hi => by
    rcases Relation.ReflTransGen.cases_tail hs with rfl | ⟨q, -, hpart⟩
    · rw [hinterval] at hi
      split at hi
      · obtain rfl := Option.some.inj hi
        left
        rw [Interval.normalize, ite_self]
        exact (Number.same_iff_eq rfl rfl).mpr rfl
      · contradiction
    · exact absurd hpart (hflat q)
  exact ⟨r, rule, hr, hrule⟩

theorem rule_of_huge_upper : ∃ r, ofHierarchy [numbersBetween "huge" 0 huge] = .ok r ∧
    ∀ adjust, r.rule adjust = .error .beyondDouble := by
  obtain ⟨r, hr, -, hinterval⟩ := ofHierarchy_numbersBetween "huge" 0 huge
  have hordered : ¬ Interval.Reversed ⟨.int 0, .int huge, true, true⟩ := by decide +kernel
  have hrange := hinterval .range
  rw [if_pos rfl, Interval.normalize_of_not_reversed hordered] at hrange
  refine ⟨r, hr, fun adjust => ?_⟩
  have hlands := lands_rule adjust r
  cases hrule : r.rule adjust with
  | error cause =>
      rw [hrule] at hlands
      rw [hlands.1]
  | ok rule =>
      rw [hrule] at hlands
      rcases hlands r .refl .range _ hrange with hsame | ⟨-, hupper⟩
      · have hdiffer : (Number.int 0).same (.int huge) = false := by decide +kernel
        rw [hdiffer] at hsame
        contradiction
      · exact absurd beyondDoubles_huge hupper

end Record

end TermRules
