import Mathlib.Data.List.Perm.Subperm
import Mathlib.Data.List.TakeWhile
import TermRules.Proofs.Registry.Chain

/-!
How resolving a reference ends. The walk from its term either climbs to the root of the taxonomy or
strays, whatever the parent links look like; which of the two it does depends on the links alone.
The depth limit is put only to a chain that has reached the root.
-/

namespace TermRules

namespace Registry

variable {r : Registry} {t u : Term} {chain rest : Hierarchy} {reference key : String}
  {seen : List String} {steps : Nat}

/-- A reference names a key if it is the key, or has the key behind its first slash. -/
def Names (reference key : String) : Prop :=
  reference = key ∨
    ∃ collection : String, '/' ∉ collection.toList ∧ reference = collection ++ "/" ++ key

theorem afterSlash?_eq_some_iff : afterSlash? reference = some key ↔
    ∃ collection : String, '/' ∉ collection.toList ∧ reference = collection ++ "/" ++ key := by
  constructor
  · intro h
    rw [afterSlash?] at h
    split at h
    · contradiction
    · rename_i c rest hdrop
      have hc : c = '/' := by
        have hhead := List.head?_dropWhile_not (· != '/') reference.toList
        simpa [hdrop] using hhead
      refine ⟨String.ofList (reference.toList.takeWhile (· != '/')), ?_, ?_⟩
      · rw [String.toList_ofList]
        intro hmem
        simpa using List.mem_takeWhile_imp hmem
      · have hsplit := List.takeWhile_append_dropWhile (p := (· != '/')) (l := reference.toList)
        rw [hdrop, hc] at hsplit
        rw [← Option.some.inj h, ← String.toList_inj]
        simpa using hsplit.symm
  · rintro ⟨collection, hslash, rfl⟩
    have hall : ∀ c ∈ collection.toList, (c != '/') = true := by
      intro c hc
      have hne : c ≠ '/' := fun heq => hslash (heq ▸ hc)
      simpa using hne
    have hdrop : (collection ++ "/" ++ key).toList.dropWhile (· != '/') =
        '/' :: key.toList := by
      simp [List.dropWhile_append_of_pos hall]
    simp only [afterSlash?, hdrop, String.ofList_toList]

theorem ofKey?_eq_none_iff : r.ofKey? key = none ↔ ∀ t ∈ r.terms, t.key ≠ key := by
  simp [ofKey?]

private theorem lookup_eq_none_iff :
    r.lookup reference = none ↔ ∀ t ∈ r.terms, ¬ Names reference t.key := by
  have hslash : (afterSlash? reference).bind r.ofKey? = none ↔
      ∀ t ∈ r.terms, afterSlash? reference ≠ some t.key := by
    cases afterSlash? reference with
    | none => simp
    | some key =>
        rw [Option.bind_some, ofKey?_eq_none_iff]
        refine forall₂_congr fun t _ => ?_
        rw [ne_comm, ne_eq, ne_eq, Option.some.injEq]
  have hlookup : r.lookup reference = none ↔
      r.ofKey? reference = none ∧ (afterSlash? reference).bind r.ofKey? = none := by
    rw [lookup]
    cases r.ofKey? reference <;> simp
  rw [hlookup, hslash, ofKey?_eq_none_iff, ← forall₂_and]
  refine forall₂_congr fun t _ => ?_
  rw [Names, not_or, ← afterSlash?_eq_some_iff, ne_comm]

/-- The terms from that of a reference up to the root, no key twice. -/
structure IsChainOf (r : Registry) (reference : String) (chain : Hierarchy) : Prop where
  climbs : ∃ t, r.lookup reference = some t ∧ r.Climbs t chain
  nodup : (chain.map Term.key).Nodup

/-- The walk from a term does not get to the root: it comes to a key that it has met, to a term
without a parent link, or to a link that refers to no term. -/
inductive Strays (r : Registry) : List String → Term → Prop
  | returned {seen : List String} {t : Term} (h : t.key ∈ seen) : Strays r seen t
  | orphaned {seen : List String} {t : Term} (h : t.parent = none) : Strays r seen t
  | dangling {seen : List String} {t : Term} {parent : String} (h : t.parent = some parent)
      (hroot : parent ≠ Vocabulary.root) (hlookup : r.lookup parent = none) : Strays r seen t
  | link {seen : List String} {t u : Term} {parent : String} (h : t.parent = some parent)
      (hroot : parent ≠ Vocabulary.root) (hlookup : r.lookup parent = some u)
      (hrest : Strays r (t.key :: seen) u) : Strays r seen t

private theorem strays_iff : r.Strays seen t ↔ t.key ∈ seen ∨ t.parent = none ∨
    ∃ parent, t.parent = some parent ∧ parent ≠ Vocabulary.root ∧
      (r.lookup parent = none ∨
        ∃ u, r.lookup parent = some u ∧ r.Strays (t.key :: seen) u) := by
  constructor
  · intro h
    cases h with
    | returned h => exact .inl h
    | orphaned h => exact .inr (.inl h)
    | dangling h hroot hlookup => exact .inr (.inr ⟨_, h, hroot, .inl hlookup⟩)
    | link h hroot hlookup hrest =>
        exact .inr (.inr ⟨_, h, hroot, .inr ⟨_, hlookup, hrest⟩⟩)
  · rintro (h | h | ⟨parent, h, hroot, hlookup | ⟨u, hlookup, hrest⟩⟩)
    · exact .returned h
    · exact .orphaned h
    · exact .dangling h hroot hlookup
    · exact .link h hroot hlookup hrest

private theorem climb_succ_eq_none_iff : r.climb (steps + 1) seen t = none ↔
    t.key ∈ seen ∨ t.parent = none ∨
      ∃ parent, t.parent = some parent ∧ parent ≠ Vocabulary.root ∧
        (r.lookup parent = none ∨
          ∃ u, r.lookup parent = some u ∧ r.climb steps (t.key :: seen) u = none) := by
  simp only [climb, List.contains_iff_mem]
  by_cases hseen : t.key ∈ seen
  · simp [hseen]
  · cases t.parent with
    | none => simp [hseen]
    | some parent =>
        by_cases hroot : parent = Vocabulary.root
        · simp [hseen, hroot]
        · cases hlookup : r.lookup parent <;> simp [hseen, hroot, hlookup]

/-- The steps of the walk suffice: keys already met are keys of the registry, so a walk that has
used up its steps has come back to one of them. -/
theorem climb_eq_none_iff (hnodup : seen.Nodup) (hseen : seen ⊆ r.terms.map Term.key)
    (ht : t ∈ r.terms) (hsteps : r.terms.length < seen.length + steps) :
    r.climb steps seen t = none ↔ r.Strays seen t := by
  have hlength : seen.length ≤ r.terms.length := by
    simpa using (hnodup.subperm hseen).length_le
  induction steps generalizing seen t with
  | zero => omega
  | succ steps ih =>
      rw [climb_succ_eq_none_iff, strays_iff]
      by_cases hmem : t.key ∈ seen
      · simp [hmem]
      have hnodup' : (t.key :: seen).Nodup := List.nodup_cons.mpr ⟨hmem, hnodup⟩
      have hseen' : t.key :: seen ⊆ r.terms.map Term.key :=
        List.cons_subset.mpr ⟨List.mem_map_of_mem ht, hseen⟩
      have hlength' : (t.key :: seen).length ≤ r.terms.length := by
        simpa using (hnodup'.subperm hseen').length_le
      have hsteps' : r.terms.length < (t.key :: seen).length + steps := by
        rw [List.length_cons]
        omega
      have hrest (parent : String) :
          (∃ u, r.lookup parent = some u ∧ r.climb steps (t.key :: seen) u = none) ↔
            ∃ u, r.lookup parent = some u ∧ r.Strays (t.key :: seen) u :=
        exists_congr fun u => and_congr_right fun hlookup =>
          ih hnodup' hseen' (mem_of_lookup hlookup) hsteps' hlength'
      simp only [hrest]

private theorem Climbs.subset_terms (h : r.Climbs t chain) (ht : r.lookup t.key = some t) :
    chain ⊆ r.terms :=
  fun _ hu => mem_of_lookup (h.lookup_key_of_mem ht hu)

/-- From the term of a reference on, the walk has enough steps for every chain without
repetition. -/
theorem climb_eq_some_iff_isChainOf (h : r.lookup reference = some t) :
    r.climb (r.terms.length + 1) [] t = some chain ↔ r.IsChainOf reference chain := by
  rw [climb_eq_some_iff]
  constructor
  · rintro ⟨hclimbs, -, hnodup, -⟩
    exact ⟨⟨t, h, hclimbs⟩, hnodup⟩
  · rintro ⟨⟨u, hu, hclimbs⟩, hnodup⟩
    obtain rfl := Option.some.inj (h.symm.trans hu)
    have hsubset := hclimbs.subset_terms (lookup_key h)
    have hlength : chain.length ≤ r.terms.length :=
      (hnodup.of_map.subperm hsubset).length_le
    exact ⟨hclimbs, by omega, hnodup, by simp⟩

private theorem climb_eq_none_iff_strays (h : r.lookup reference = some t) :
    r.climb (r.terms.length + 1) [] t = none ↔ r.Strays [] t :=
  climb_eq_none_iff List.nodup_nil (List.nil_subset _) (mem_of_lookup h) (by simp)

theorem resolve_of_lookup_eq_none (h : r.lookup reference = none) :
    r.resolve reference = .error (.unknownType reference) := by
  rw [resolve, h]

theorem resolve_of_strays (h : r.lookup reference = some t) (hstrays : r.Strays [] t) :
    r.resolve reference = .error (.notAType reference) := by
  simp only [resolve, h, (climb_eq_none_iff_strays h).mpr hstrays]

theorem resolve_of_isChainOf (h : r.IsChainOf reference chain) : r.resolve reference =
    if r.maxDepth < chain.length then .error (.tooDeep reference r.maxDepth) else .ok chain := by
  obtain ⟨t, hlookup, -⟩ := h.climbs
  simp only [resolve, hlookup, (climb_eq_some_iff_isChainOf hlookup).mpr h]

/-- Every reference leads nowhere, strays or has a chain. -/
theorem lookup_cases (r : Registry) (reference : String) : r.lookup reference = none ∨
    (∃ t, r.lookup reference = some t ∧ r.Strays [] t) ∨ ∃ chain, r.IsChainOf reference chain := by
  cases hlookup : r.lookup reference with
  | none => exact .inl rfl
  | some t =>
      cases hclimb : r.climb (r.terms.length + 1) [] t with
      | none => exact .inr (.inl ⟨t, rfl, (climb_eq_none_iff_strays hlookup).mp hclimb⟩)
      | some chain => exact .inr (.inr ⟨chain, (climb_eq_some_iff_isChainOf hlookup).mp hclimb⟩)

private theorem resolve_eq_unknownType_iff : r.resolve reference = .error (.unknownType reference) ↔
    r.lookup reference = none := by
  refine ⟨fun h => ?_, resolve_of_lookup_eq_none⟩
  obtain hnone | ⟨t, hlookup, hstrays⟩ | ⟨chain, hchain⟩ := lookup_cases r reference
  · exact hnone
  · simp [resolve_of_strays hlookup hstrays] at h
  · rw [resolve_of_isChainOf hchain] at h
    split at h <;> simp at h

private theorem resolve_eq_notAType_iff : r.resolve reference = .error (.notAType reference) ↔
    ∃ t, r.lookup reference = some t ∧ r.Strays [] t := by
  refine ⟨fun h => ?_, fun ⟨t, hlookup, hstrays⟩ => resolve_of_strays hlookup hstrays⟩
  obtain hnone | hstrays | ⟨chain, hchain⟩ := lookup_cases r reference
  · simp [resolve_of_lookup_eq_none hnone] at h
  · exact hstrays
  · rw [resolve_of_isChainOf hchain] at h
    split at h <;> simp at h

private theorem resolve_eq_tooDeep_iff :
    r.resolve reference = .error (.tooDeep reference r.maxDepth) ↔
      ∃ chain, r.IsChainOf reference chain ∧ r.maxDepth < chain.length := by
  constructor
  · intro h
    obtain hnone | ⟨t, hlookup, hstrays⟩ | ⟨chain, hchain⟩ := lookup_cases r reference
    · simp [resolve_of_lookup_eq_none hnone] at h
    · simp [resolve_of_strays hlookup hstrays] at h
    · rw [resolve_of_isChainOf hchain] at h
      split at h
      · rename_i hdepth
        exact ⟨chain, hchain, hdepth⟩
      · contradiction
  · rintro ⟨chain, hchain, hdepth⟩
    rw [resolve_of_isChainOf hchain, if_pos hdepth]

theorem resolve_eq_ok_iff_isChainOf : r.resolve reference = .ok chain ↔
    r.IsChainOf reference chain ∧ (chain.length : Int) ≤ r.maxDepth := by
  rw [resolve_eq_ok_iff_climb]
  constructor
  · rintro ⟨t, hlookup, hclimb, hdepth⟩
    exact ⟨(climb_eq_some_iff_isChainOf hlookup).mp hclimb, hdepth⟩
  · rintro ⟨hchain, hdepth⟩
    obtain ⟨t, hlookup, -⟩ := hchain.climbs
    exact ⟨t, hlookup, (climb_eq_some_iff_isChainOf hlookup).mpr hchain, hdepth⟩

private theorem resolve_error_cases {f : Failure} (h : r.resolve reference = .error f) :
    f = .unknownType reference ∨ f = .tooDeep reference r.maxDepth ∨ f = .notAType reference := by
  obtain hnone | ⟨t, hlookup, hstrays⟩ | ⟨chain, hchain⟩ := lookup_cases r reference
  · rw [resolve_of_lookup_eq_none hnone] at h
    exact .inl (Except.error.inj h).symm
  · rw [resolve_of_strays hlookup hstrays] at h
    exact .inr (.inr (Except.error.inj h).symm)
  · rw [resolve_of_isChainOf hchain] at h
    split at h
    · exact .inr (.inl (Except.error.inj h).symm)
    · contradiction

private theorem Climbs.drop (h : r.Climbs t chain) {i : Nat} (hi : i < chain.length) :
    r.Climbs chain[i] (chain.drop i) := by
  induction h generalizing i with
  | last h =>
      obtain rfl : i = 0 := by simpa using hi
      exact .last h
  | link h hroot hlookup hrest ih =>
      cases i with
      | zero => exact .link h hroot hlookup hrest
      | succ i => exact ih (by simpa using hi)

/-- What stands above a term in a chain is the chain of the term's key. -/
theorem IsChainOf.drop (h : r.IsChainOf reference chain) {i : Nat} (hi : i < chain.length) :
    r.IsChainOf chain[i].key (chain.drop i) := by
  obtain ⟨⟨t, hlookup, hclimbs⟩, hnodup⟩ := h
  have hkey : r.lookup chain[i].key = some chain[i] :=
    hclimbs.lookup_key_of_mem (lookup_key hlookup) (List.getElem_mem hi)
  exact ⟨⟨_, hkey, hclimbs.drop hi⟩, hnodup.sublist ((List.drop_sublist i chain).map _)⟩

/-- Resolving a reference gives its chain or one of three failures, each of them in exactly the
cases that its name says. Within a chain every key resolves to the rest of the chain. -/
theorem resolve_classifies (r : Registry) (reference : String) :
    (r.resolve reference = .error (.unknownType reference) ↔
      ∀ t ∈ r.terms, ¬ Names reference t.key) ∧
    (∀ chain, r.resolve reference = .ok chain ↔
      r.IsChainOf reference chain ∧ (chain.length : Int) ≤ r.maxDepth) ∧
    (r.resolve reference = .error (.tooDeep reference r.maxDepth) ↔
      ∃ chain, r.IsChainOf reference chain ∧ r.maxDepth < chain.length) ∧
    (r.resolve reference = .error (.notAType reference) ↔
      ∃ t, r.lookup reference = some t ∧ r.Strays [] t) ∧
    (∀ f, r.resolve reference = .error f → f = .unknownType reference ∨
      f = .tooDeep reference r.maxDepth ∨ f = .notAType reference) ∧
    ∀ chain, r.resolve reference = .ok chain →
      ∀ i (hi : i < chain.length), r.resolve chain[i].key = .ok (chain.drop i) := by
  refine ⟨resolve_eq_unknownType_iff.trans lookup_eq_none_iff,
    fun chain => resolve_eq_ok_iff_isChainOf, resolve_eq_tooDeep_iff, resolve_eq_notAType_iff,
    fun f => resolve_error_cases, fun chain h i hi => ?_⟩
  obtain ⟨hchain, hdepth⟩ := resolve_eq_ok_iff_isChainOf.mp h
  have hlength : (chain.drop i).length ≤ chain.length := (List.drop_sublist i chain).length_le
  exact resolve_eq_ok_iff_isChainOf.mpr ⟨hchain.drop hi, by omega⟩

/-- Two terms that are each other's parent, one whose parent is missing, and one that is
too deep. -/
def tangled : Registry where
  maxDepth := 1
  terms := [{ id := "terms/a", key := "a", category := "text", parent := some "terms/b" },
    { id := "terms/b", key := "b", category := "text", parent := some "a" },
    { id := "terms/c", key := "c", category := "text", parent := some "ghost" },
    { id := "terms/d", key := "d", category := "text", parent := some Vocabulary.root },
    { id := "terms/e", key := "e", category := "text", parent := some "terms/d" }]

theorem resolve_classifies_tangled :
    (∀ t ∈ tangled.terms, ¬ Names "ghost" t.key) ∧
      (∃ t, tangled.lookup "x/a" = some t ∧ tangled.Strays [] t) ∧
      (∃ t, tangled.lookup "c" = some t ∧ tangled.Strays [] t) ∧
      (∃ chain, tangled.IsChainOf "e" chain ∧ 1 < (chain.length : Int)) ∧
      ∃ chain, tangled.IsChainOf "terms/d" chain ∧ (chain.length : Int) ≤ 1 := by
  refine ⟨(resolve_classifies tangled "ghost").1.mp rfl,
    (resolve_classifies tangled "x/a").2.2.2.1.mp rfl,
    (resolve_classifies tangled "c").2.2.2.1.mp rfl,
    (resolve_classifies tangled "e").2.2.1.mp rfl, ?_⟩
  exact ⟨_, ((resolve_classifies tangled "terms/d").2.1 _).mp rfl⟩

end Registry

end TermRules
