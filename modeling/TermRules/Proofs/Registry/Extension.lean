import TermRules.Proofs.Registry.Chain
import TermRules.Registry.Standard

/-!
The standard taxonomy with further terms. The further terms name no hooks and leave the standard
ones in place, so whatever hooks a chain has come from standard terms, and the standard part of a
chain is the same in every such registry.
-/

namespace TermRules

namespace Registry

variable {r : Registry} {t u : Term}

private theorem mem_place {ts : List Term} (h : u ∈ place t ts) : u = t ∨ u ∈ ts := by
  induction ts with
  | nil => simpa [place] using h
  | cons v vs ih =>
      rw [place] at h
      split at h
      · simp only [List.mem_cons] at h ⊢
        tauto
      · simp only [List.mem_cons] at h ⊢
        tauto

private theorem place_of_new {ts : List Term} (h : ∀ u ∈ ts, u.key ≠ t.key) :
    place t ts = ts ++ [t] := by
  induction ts with
  | nil => rfl
  | cons v vs ih =>
      obtain ⟨hv, hvs⟩ := List.forall_mem_cons.mp h
      rw [place, if_neg hv, ih hvs, List.cons_append]

theorem find?_place {key : String} (h : t.key ≠ key) (ts : List Term) :
    (place t ts).find? (fun u => u.key = key) = ts.find? fun u => u.key = key := by
  induction ts with
  | nil => simp [place, h]
  | cons v vs ih =>
      rw [place]
      split
      · rename_i hv
        have hne : v.key ≠ key := hv ▸ h
        simp [h, hne]
      · simp only [List.find?_cons, ih]

private theorem mem_addAll {ts : List Term} (h : u ∈ (r.addAll ts).terms) :
    u ∈ r.terms ∨ u ∈ ts := by
  induction ts generalizing r with
  | nil => exact .inl h
  | cons t ts ih =>
      rcases ih (r := r.add t) h with h | h
      · rcases mem_place h with rfl | h
        · exact .inr List.mem_cons_self
        · exact .inl h
      · exact .inr (List.mem_cons_of_mem t h)

private theorem ofKey?_addAll {key : String} {ts : List Term} (h : ∀ t ∈ ts, t.key ≠ key) :
    (r.addAll ts).ofKey? key = r.ofKey? key := by
  induction ts generalizing r with
  | nil => rfl
  | cons t ts ih =>
      obtain ⟨ht, hts⟩ := List.forall_mem_cons.mp h
      exact (ih (r := r.add t) hts).trans (find?_place ht r.terms)

private theorem terms_addAll_of_nodup {ts : List Term} (h : ((r.terms ++ ts).map Term.key).Nodup) :
    (r.addAll ts).terms = r.terms ++ ts := by
  induction ts generalizing r with
  | nil => simp [addAll]
  | cons t ts ih =>
      have hnew : ∀ u ∈ r.terms, u.key ≠ t.key := by
        rw [List.map_append, List.nodup_append] at h
        intro u hu heq
        exact h.2.2 u.key (List.mem_map_of_mem hu) t.key (by simp) heq
      have hadd : (r.add t).terms = r.terms ++ [t] := place_of_new hnew
      have htail := ih (r := r.add t) (by rw [hadd]; simpa using h)
      rw [hadd, List.append_assoc] at htail
      exact htail

theorem standard_terms (maxDepth : Int) : (standard maxDepth).terms = standardTerms := by
  have hnodup : (standardTerms.map Term.key).Nodup := by decide +kernel
  exact terms_addAll_of_nodup (r := empty maxDepth) hnodup

/-- Terms that name no hooks and stand beside the standard ones. -/
structure IsExtension (extras : List Term) : Prop where
  casts : ∀ t ∈ extras, t.casts = []
  customs : ∀ t ∈ extras, t.customs = []
  keys : ∀ t ∈ extras, ∀ s ∈ standardTerms, t.key ≠ s.key

/-- The standard taxonomy with further terms. -/
def extended (maxDepth : Int) (extras : List Term) : Registry :=
  (standard maxDepth).addAll extras

variable {maxDepth : Int} {extras : List Term}

private theorem IsExtension.mem_terms (hextras : IsExtension extras)
    (h : u ∈ (extended maxDepth extras).terms) :
    u ∈ standardTerms ∨ u.casts = [] ∧ u.customs = [] ∧ ∀ s ∈ standardTerms, u.key ≠ s.key := by
  rcases mem_addAll h with h | h
  · exact .inl (standard_terms maxDepth ▸ h)
  · exact .inr ⟨hextras.casts u h, hextras.customs u h, hextras.keys u h⟩

private theorem IsExtension.ofKey?_standard (hextras : IsExtension extras) (maxDepth : Int)
    {s : Term} (hs : s ∈ standardTerms) :
    (extended maxDepth extras).ofKey? s.key = standardTerms.find? fun t => t.key = s.key := by
  rw [extended, ofKey?_addAll fun t ht => hextras.keys t ht s hs, ofKey?, standard_terms]

theorem lookup_of_ofKey? {key : String} (h : r.ofKey? key = some t) : r.lookup key = some t := by
  rw [lookup, h]

private theorem IsExtension.lookup_numeric (hextras : IsExtension extras) (maxDepth : Int) :
    ∃ s, (extended maxDepth extras).lookup Vocabulary.numeric = some s ∧
      s.parent = some Vocabulary.root ∧ s.constraints = {} := by
  obtain ⟨s, hs, hfound⟩ : ∃ s ∈ standardTerms, s.key = Vocabulary.numeric := by decide
  have hofKey := hextras.ofKey?_standard maxDepth hs
  rw [hfound] at hofKey
  exact ⟨_, lookup_of_ofKey? hofKey, rfl, rfl⟩

/-- The chain of the integer type is the same in every registry, and ends in a term that constrains
nothing. -/
theorem IsExtension.climbs_integer (hextras : IsExtension extras)
    (hu : u ∈ (extended maxDepth extras).terms) (hkey : u.key = Vocabulary.integer)
    {rest : Hierarchy} (h : (extended maxDepth extras).Climbs u rest) :
    ∃ s, rest = [u, s] ∧ s.constraints = {} := by
  have hstandard : u ∈ standardTerms := by
    rcases hextras.mem_terms hu with hu | ⟨-, -, hne⟩
    · exact hu
    · obtain ⟨s, hs, hinteger⟩ : ∃ s ∈ standardTerms, s.key = Vocabulary.integer := by decide
      exact absurd (hkey.trans hinteger.symm) (hne s hs)
  have hparents : ∀ s ∈ standardTerms, s.key = Vocabulary.integer →
      s.parent = some Vocabulary.numeric := by decide
  have hparent := hparents u hstandard hkey
  obtain ⟨s, hlookup, hroot, hempty⟩ := hextras.lookup_numeric maxDepth
  have hclimbs : (extended maxDepth extras).Climbs u [u, s] :=
    .link hparent (by decide) hlookup (.last hroot)
  exact ⟨s, h.unique hclimbs, hempty⟩

theorem mem_terms_of_resolve {reference : String} {chain : Hierarchy}
    (h : r.resolve reference = .ok chain) (hu : u ∈ chain) : u ∈ r.terms := by
  obtain ⟨t, hlookup, hclimbs, -⟩ := resolve_eq_ok_iff.mp h
  exact mem_of_lookup (hclimbs.lookup_key_of_mem (lookup_key hlookup) hu)

/-- Above the integer type nothing is constrained. -/
theorem IsExtension.unconstrained_above_integer (hextras : IsExtension extras)
    {reference : String} {chain rest : Hierarchy}
    (h : (extended maxDepth extras).resolve reference = .ok chain)
    (hinteger : ∃ u ∈ chain, u.key = Vocabulary.integer) (hrest : rest <:+ chain)
    (hnone : ∀ u ∈ rest, u.key ≠ Vocabulary.integer) : ∀ u ∈ rest, u.constraints = {} := by
  obtain ⟨t, -, hclimbs, -⟩ := resolve_eq_ok_iff.mp h
  obtain ⟨v, hv, hkey⟩ := hinteger
  obtain ⟨below, hbelow, hsuffix⟩ := hclimbs.suffix_of_mem hv
  obtain ⟨s, rfl, hempty⟩ := hextras.climbs_integer (mem_terms_of_resolve h hv) hkey hbelow
  rcases List.suffix_or_suffix_of_suffix hrest hsuffix with hle | hle
  · rcases List.suffix_cons_iff.mp hle with rfl | hle
    · exact absurd hkey (hnone v (by simp))
    · intro u hu
      have hus : u = s := by simpa using hle.subset hu
      rw [hus, hempty]
  · exact absurd hkey (hnone v (hle.subset (by simp)))

/-- The casts of terms of a category that the standard taxonomy has. -/
def standardCasts : Category → List String
  | .text => [Vocabulary.hook "castString", Vocabulary.hook "castHexadecimal"]
  | .numeric => [Vocabulary.hook "castNumber"]
  | .boolean => [Vocabulary.hook "castBoolean"]
  | .any | .list | .struct | .object => []

def standardCustoms : Category → List String
  | .text => [Vocabulary.hook "customUrl", Vocabulary.hook "customHex",
      Vocabulary.hook "customEmail"]
  | .numeric => [Vocabulary.hook "customInt", Vocabulary.hook "customTimeStamp"]
  | .any | .boolean | .list | .struct | .object => []

theorem hooks_of_standard (c : Category) : ∀ s ∈ standardTerms, s.category = c.name →
    s.casts ⊆ standardCasts c ∧ s.customs ⊆ standardCustoms c := by
  cases c <;> decide

theorem IsExtension.hooks (hextras : IsExtension extras)
    (hu : u ∈ (extended maxDepth extras).terms) {c : Category} (hc : u.category = c.name) :
    u.casts ⊆ standardCasts c ∧ u.customs ⊆ standardCustoms c := by
  rcases hextras.mem_terms hu with hu | ⟨hcasts, hcustoms, -⟩
  · exact hooks_of_standard c u hu hc
  · simp [hcasts, hcustoms]

theorem IsExtension.key_of_castHexadecimal (hextras : IsExtension extras)
    (hu : u ∈ (extended maxDepth extras).terms)
    (h : Vocabulary.hook "castHexadecimal" ∈ u.casts) : u.key = Vocabulary.hex := by
  have hstandard : ∀ s ∈ standardTerms, Vocabulary.hook "castHexadecimal" ∈ s.casts →
      s.key = Vocabulary.hex := by decide
  rcases hextras.mem_terms hu with hu | ⟨hcasts, -⟩
  · exact hstandard u hu h
  · simp [hcasts] at h

end Registry

end TermRules
