import Mathlib.Logic.Relation
import TermRules.Proofs.Record.Container

/-!
The tree of a record and where its members come from. Below the record of a hierarchy stand the
records of its further runs and those of the axes of its objects, which are hierarchies in turn. The
records in the tree are the levels of these hierarchies and no others.
-/

namespace TermRules

namespace Record

/-- The record of the elements, the keys or the values of another one. -/
def IsPartOf (s r : Record Number) : Prop :=
  r.child = some s ∨ r.keyRecord = some s ∨ r.valueRecord = some s

/-- `s` is the record `r` itself or is somewhere below it. -/
def IsWithin (s r : Record Number) : Prop :=
  Relation.ReflTransGen IsPartOf s r

/-- What the last term of a run that has terms in the axis has there. -/
def axisOfRun (axis : Term → Option Hierarchy) (run : List Term) : Option Hierarchy :=
  lastSet (fun t => (axis t).filter fun terms => !terms.isEmpty) run

end Record

namespace Hierarchy

/-- `g` describes the keys or the values of the objects of a run of `h`. -/
def IsAxisOf (g h : Hierarchy) : Prop :=
  ∃ run ∈ Record.runs h, Record.categoryOf run = .object ∧
    (Record.axisOfRun Term.keyAxis run = some g ∨ Record.axisOfRun Term.valueAxis run = some g)

/-- `g` is the hierarchy `h` itself or describes a part of it, to any depth. -/
def IsWithin (g h : Hierarchy) : Prop :=
  Relation.ReflTransGen IsAxisOf g h

end Hierarchy

namespace Record

variable {h g : Hierarchy} {r s : Record Number} {run : List Term} {c : Category}

section Axes

private theorem lastSet_bind {α β : Type} {f : Term → Option α} {k : α → Option β}
    (hk : ∀ t ∈ run, ∀ a, f t = some a → ∃ b, k a = some b) :
    lastSet (fun t => (f t).bind k) run = (lastSet f run).bind k := by
  induction run using List.reverseRecOn with
  | nil => rfl
  | append_singleton run t ih =>
      rw [lastSet_concat, lastSet_concat, ih fun u hu => hk u (List.mem_append_left [t] hu)]
      cases hf : f t with
      | none => rfl
      | some a =>
          obtain ⟨b, hb⟩ := hk t (by simp) a hf
          simp only [Option.bind_some, hb, Option.some_or]

private theorem ne_nil_of_axisOfRun {axis : Term → Option Hierarchy}
    (h : axisOfRun axis run = some g) : g ≠ [] := by
  obtain ⟨t, -, ht⟩ := List.exists_of_findSome?_eq_some h
  simpa using (Option.filter_eq_some_iff.mp ht).2

/-- Where the axes compile, the record of an axis is that of the last axis with terms. -/
theorem lastSet_axisRecord_iff {axis : Term → Option Hierarchy}
    (hcompile : ∀ t ∈ run, ∀ terms, axis t = some terms → ∃ r, ofHierarchy terms = .ok r) :
    lastSet (fun t => axisRecord (axis t)) run = some s ↔
      ∃ g, axisOfRun axis run = some g ∧ ofHierarchy g = .ok s := by
  have hbind : lastSet (fun t => axisRecord (axis t)) run =
      (axisOfRun axis run).bind fun terms => (ofHierarchy terms).toOption :=
    lastSet_bind fun t ht terms hterms => by
      obtain ⟨r, hr⟩ := hcompile t ht terms (Option.filter_eq_some_iff.mp hterms).1
      exact ⟨r, by rw [hr]; rfl⟩
  rw [hbind, Option.bind_eq_some_iff]
  exact exists_congr fun g => and_congr_right fun _ => toOption_eq_some_iff

private theorem ofRun_keyRecord_iff : (ofRun c run).keyRecord = some s ↔
    c = .object ∧ lastSet (fun t => axisRecord t.keyAxis) run = some s := by
  cases c <;> simp [ofRun, objectOfRun, textOfRun, numericOfRun, listOfRun]

private theorem ofRun_valueRecord_iff : (ofRun c run).valueRecord = some s ↔
    c = .object ∧ lastSet (fun t => axisRecord t.valueAxis) run = some s := by
  cases c <;> simp [ofRun, objectOfRun, textOfRun, numericOfRun, listOfRun]

private theorem axesCompile_of_mem_run (hr : ofHierarchy h = .ok r) (hrun : run ∈ runs h)
    (hobject : categoryOf run = .object) : ∀ t ∈ run, AxesCompile t := by
  obtain ⟨-, -, hcategory, hcompile⟩ := ofHierarchy_describes_runs hr
  intro t ht
  have hname : t.category = Category.object.name := by
    rw [hcategory run hrun t ht, hobject]
  exact hcompile t (mem_of_mem_run hrun ht) hname

theorem exists_mem_of_axisOfRun {axis : Term → Option Hierarchy} (h : axisOfRun axis run = some g) :
    ∃ t ∈ run, axis t = some g := by
  obtain ⟨t, ht, hfilter⟩ := List.exists_of_findSome?_eq_some h
  exact ⟨t, List.mem_reverse.mp ht, (Option.filter_eq_some_iff.mp hfilter).1⟩

private theorem compiles_of_axisOfRun (hcompile : ∀ t ∈ run, AxesCompile t)
    (h : axisOfRun Term.keyAxis run = some g ∨ axisOfRun Term.valueAxis run = some g) :
    ∃ a, ofHierarchy g = .ok a := by
  rcases h with h | h
  · obtain ⟨t, ht, hkeys⟩ := exists_mem_of_axisOfRun h
    exact hcompile t ht g (.inl hkeys)
  · obtain ⟨t, ht, hvalues⟩ := exists_mem_of_axisOfRun h
    exact hcompile t ht g (.inr hvalues)

/-- The records for the keys and the values of a run are those of the hierarchies that
describe them. -/
theorem exists_axis_iff (hr : ofHierarchy h = .ok r) (hrun : run ∈ runs h) :
    ((ofRun (categoryOf run) run).keyRecord = some s ∨
      (ofRun (categoryOf run) run).valueRecord = some s) ↔
      ∃ g, categoryOf run = .object ∧
        (axisOfRun Term.keyAxis run = some g ∨ axisOfRun Term.valueAxis run = some g) ∧
        ofHierarchy g = .ok s := by
  rw [ofRun_keyRecord_iff, ofRun_valueRecord_iff, ← and_or_left]
  simp only [or_and_right, exists_or, exists_and_left]
  refine and_congr_right fun hobject => ?_
  have haxes := axesCompile_of_mem_run hr hrun hobject
  exact or_congr
    (lastSet_axisRecord_iff fun t ht terms hterms => haxes t ht terms (.inl hterms))
    (lastSet_axisRecord_iff fun t ht terms hterms => haxes t ht terms (.inr hterms))

end Axes

section Chain

variable {q : Record Number} {rest rs : List (Record Number)}

private theorem chain_cons_keyRecord (q : Record Number) (rest : List (Record Number)) :
    (chain (q :: rest)).keyRecord = q.keyRecord := by
  cases rest <;> rfl

private theorem chain_cons_valueRecord (q : Record Number) (rest : List (Record Number)) :
    (chain (q :: rest)).valueRecord = q.valueRecord := by
  cases rest <;> rfl

theorem chain_cons_casts (q : Record Number) (rest : List (Record Number)) :
    (chain (q :: rest)).casts = q.casts := by
  cases rest <;> rfl

theorem chain_cons_customs (q : Record Number) (rest : List (Record Number)) :
    (chain (q :: rest)).customs = q.customs := by
  cases rest <;> rfl

theorem chain_cons_child (hq : q.child = none) :
    (chain (q :: rest)).child = some s ↔ rest ≠ [] ∧ s = chain rest := by
  cases rest with
  | nil => simp [chain, hq]
  | cons q' rest => simp [chain, eq_comm]

private theorem chain_isWithin_of_suffix (hne : rest ≠ []) (h : rest <:+ rs) :
    (chain rest).IsWithin (chain rs) := by
  induction rs with
  | nil => exact absurd (List.suffix_nil.mp h) hne
  | cons q rs ih =>
      rcases List.suffix_cons_iff.mp h with rfl | h
      · exact .refl
      · have hrs : rs ≠ [] := by
          rintro rfl
          exact hne (List.suffix_nil.mp h)
        obtain ⟨q', rs, rfl⟩ := List.exists_cons_of_ne_nil hrs
        exact (ih h).tail (.inl rfl)

end Chain

section Tree

theorem eq_of_isWithin_empty (hs : s.IsWithin {}) : s = {} := by
  rcases Relation.ReflTransGen.cases_tail hs with heq | ⟨q, -, h | h | h⟩
  · exact heq.symm
  all_goals contradiction

/-- A level of the record of a hierarchy: the record of one of its runs, linked to those of the runs
behind it. -/
def IsLevelOf (s : Record Number) (g : Hierarchy) : Prop :=
  ∃ rest, rest ≠ [] ∧ rest <:+ runRecords g ∧ s = chain rest

private theorem runRecords_ne_nil (hne : h ≠ []) : runRecords h ≠ [] := by
  simpa [runRecords, runs] using hne

private theorem isLevelOf_of_ofHierarchy (hr : ofHierarchy h = .ok r) (hne : h ≠ []) :
    r.IsLevelOf h :=
  ⟨runRecords h, runRecords_ne_nil hne, List.suffix_rfl, ofHierarchy_eq_chain hr⟩

/-- A level by its run: what it has for keys and values is from the run alone. -/
theorem IsLevelOf.exists_run (hs : s.IsLevelOf g) : ∃ run rest, run ∈ runs g ∧
    ofRun (categoryOf run) run :: rest <:+ runRecords g ∧
    s = chain (ofRun (categoryOf run) run :: rest) := by
  obtain ⟨rest, hne, hsuffix, rfl⟩ := hs
  obtain ⟨q, rest, rfl⟩ := List.exists_cons_of_ne_nil hne
  obtain ⟨run, hrun, rfl⟩ := List.mem_map.mp (hsuffix.subset List.mem_cons_self)
  exact ⟨run, rest, hrun, hsuffix, rfl⟩

private theorem exists_isLevelOf_of_run (hrun : run ∈ runs g) : ∃ rest,
    (chain (ofRun (categoryOf run) run :: rest)).IsLevelOf g := by
  obtain ⟨front, back, hruns⟩ := List.append_of_mem hrun
  refine ⟨back.map fun run => ofRun (categoryOf run) run, _, List.cons_ne_nil _ _, ?_, rfl⟩
  rw [runRecords, hruns, List.map_append, List.map_cons]
  exact List.suffix_append _ _

/-- What is below a level is a level of the same hierarchy or of one that describes a part of it. -/
theorem IsLevelOf.of_isPartOf (hr : ofHierarchy g = .ok r) (hs : s.IsLevelOf g) {a : Record Number}
    (h : a.IsPartOf s) :
    a.IsLevelOf g ∨ ∃ g', Hierarchy.IsAxisOf g' g ∧ g' ≠ [] ∧ ofHierarchy g' = .ok a := by
  obtain ⟨run, rest, hrun, hsuffix, rfl⟩ := hs.exists_run
  rw [IsPartOf, chain_cons_child (ofRun_child _ _), chain_cons_keyRecord, chain_cons_valueRecord,
    exists_axis_iff hr hrun] at h
  rcases h with ⟨hne, rfl⟩ | ⟨g', hobject, haxis, hg'⟩
  · exact .inl ⟨rest, hne, (List.suffix_cons _ rest).trans hsuffix, rfl⟩
  · exact .inr ⟨g', ⟨run, hrun, hobject, haxis⟩, haxis.elim ne_nil_of_axisOfRun ne_nil_of_axisOfRun,
      hg'⟩

/-- A hierarchy that describes keys or values compiles to a part of a level. -/
theorem exists_isPartOf_of_isAxisOf (hr : ofHierarchy h = .ok r) (hg : g.IsAxisOf h) :
    g ≠ [] ∧ ∃ a s, ofHierarchy g = .ok a ∧ a.IsPartOf s ∧ s.IsLevelOf h := by
  obtain ⟨run, hrun, hobject, haxis⟩ := hg
  obtain ⟨a, ha⟩ := compiles_of_axisOfRun (axesCompile_of_mem_run hr hrun hobject) haxis
  obtain ⟨rest, hlevel⟩ := exists_isLevelOf_of_run hrun
  have hpart := (exists_axis_iff hr hrun).mpr ⟨g, hobject, haxis, ha⟩
  refine ⟨haxis.elim ne_nil_of_axisOfRun ne_nil_of_axisOfRun, a, _, ha, .inr ?_, hlevel⟩
  rwa [chain_cons_keyRecord, chain_cons_valueRecord]

/-- All hierarchies within one that compiles do, and their records are within its record. -/
theorem exists_of_isWithin (hr : ofHierarchy h = .ok r) (hne : h ≠ []) (hg : g.IsWithin h) :
    g ≠ [] ∧ ∃ a, ofHierarchy g = .ok a ∧ a.IsWithin r := by
  induction hg using Relation.ReflTransGen.head_induction_on with
  | refl => exact ⟨hne, r, hr, .refl⟩
  | head haxis _ ih =>
      obtain ⟨-, b, hb, hwithin⟩ := ih
      obtain ⟨hne, a, s, ha, hpart, rest, hrest, hsuffix, rfl⟩ :=
        exists_isPartOf_of_isAxisOf hb haxis
      have hs := chain_isWithin_of_suffix hrest hsuffix
      rw [← ofHierarchy_eq_chain hb] at hs
      exact ⟨hne, a, ha, .head hpart (hs.trans hwithin)⟩

/-- The records in the tree are the levels of the hierarchies within the hierarchy. -/
theorem isWithin_iff (hr : ofHierarchy h = .ok r) (hne : h ≠ []) :
    s.IsWithin r ↔ ∃ g, g.IsWithin h ∧ s.IsLevelOf g := by
  constructor
  · -- From the root down: a part of a level is the next level or the first one of an axis.
    intro hs
    induction hs using Relation.ReflTransGen.head_induction_on with
    | refl => exact ⟨h, .refl, isLevelOf_of_ofHierarchy hr hne⟩
    | head hpart _ ih =>
        obtain ⟨g, hg, hlevel⟩ := ih
        obtain ⟨-, b, hb, -⟩ := exists_of_isWithin hr hne hg
        rcases hlevel.of_isPartOf hb hpart with hlevel | ⟨g', haxis, hne', hg'⟩
        · exact ⟨g, hg, hlevel⟩
        · exact ⟨g', .head haxis hg, isLevelOf_of_ofHierarchy hg' hne'⟩
  · rintro ⟨g, hg, rest, hrest, hsuffix, rfl⟩
    obtain ⟨-, b, hb, hwithin⟩ := exists_of_isWithin hr hne hg
    have hs := chain_isWithin_of_suffix hrest hsuffix
    rw [← ofHierarchy_eq_chain hb] at hs
    exact hs.trans hwithin

end Tree

end Record

end TermRules
