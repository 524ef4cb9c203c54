import TermRules.Compiler
import TermRules.Proofs.Record.Level
import TermRules.Proofs.Registry.Extension
import TermRules.Proofs.Term.Overlay

/-!
Chains of the standard taxonomy by itself. Each stays in one category, runs the hooks of that
category only and carries no axes. What is said of a chain here also holds once options have been
laid over it.
-/

namespace TermRules

open Registry (standardCasts standardCustoms standardTerms)

/-- A term of the category that runs no hooks but those of the standard terms of it. -/
structure Term.RunsStandard (t : Term) (c : Category) : Prop where
  category : t.category = c.name
  casts : t.casts ⊆ standardCasts c
  customs : t.customs ⊆ standardCustoms c
  hexadecimal : Vocabulary.hook "castHexadecimal" ∈ t.casts → t.key = Vocabulary.hex

/-- Terms of one category that run standard hooks, without axes. -/
structure Hierarchy.IsPlain (c : Category) (h : Hierarchy) : Prop where
  nonempty : h ≠ []
  runs : ∀ t ∈ h, t.RunsStandard c
  axes : ∀ t ∈ h, t.keyAxis = none ∧ t.valueAxis = none

namespace Term.Retunes

variable {t u : Term} {c : Category}

private theorem runsStandard (h : t.Retunes u) (ht : t.RunsStandard c) : u.RunsStandard c := by
  rw [← h]
  exact ⟨ht.category, ht.casts, ht.customs, ht.hexadecimal⟩

end Term.Retunes

namespace Hierarchy.IsPlain

variable {c : Category} {h h' inner outer : Hierarchy}

theorem category (hplain : IsPlain c h) : ∀ t ∈ h, t.category = c.name :=
  fun t ht => (hplain.runs t ht).category

theorem append (hinner : IsPlain c inner) (houter : IsPlain c outer) :
    IsPlain c (inner ++ outer) where
  nonempty := by simp [hinner.nonempty]
  runs := List.forall_mem_append.mpr ⟨hinner.runs, houter.runs⟩
  axes := List.forall_mem_append.mpr ⟨hinner.axes, houter.axes⟩

theorem retunes (hplain : IsPlain c h) (hretunes : List.Forall₂ Term.Retunes h h') :
    IsPlain c h' where
  nonempty := by
    rintro rfl
    exact hplain.nonempty (List.forall₂_nil_right_iff.mp hretunes)
  runs u hu := by
    obtain ⟨t, ht, htu⟩ := exists_of_mem_right hretunes hu
    exact htu.runsStandard (hplain.runs t ht)
  axes u hu := by
    obtain ⟨t, ht, htu⟩ := exists_of_mem_right hretunes hu
    rw [htu.axes.1, htu.axes.2]
    exact hplain.axes t ht

end Hierarchy.IsPlain

namespace Registry

variable {r : Registry} {maxDepth : Int} {t u : Term} {chain : Hierarchy} {reference : String}
  {c : Category}

private theorem key_of_lookup (hslash : afterSlash? reference = none)
    (h : r.lookup reference = some t) : t.key = reference := by
  rw [lookup, hslash] at h
  split at h
  · rename_i hfound
    obtain rfl := Option.some.inj h
    simpa using List.find?_some hfound
  · contradiction

private theorem mem_standard_of_lookup (h : (standard maxDepth).lookup reference = some t) :
    t ∈ standardTerms :=
  standard_terms maxDepth ▸ mem_of_lookup h

private theorem runsStandard_of_mem (ht : t ∈ standardTerms) : ∃ c, t.RunsStandard c := by
  have hnamed : ∀ s ∈ standardTerms, (Category.ofName? s.category).isSome := by decide
  have hkey : ∀ s ∈ standardTerms, Vocabulary.hook "castHexadecimal" ∈ s.casts →
      s.key = Vocabulary.hex := by decide
  obtain ⟨c, hc⟩ := Option.isSome_iff_exists.mp (hnamed t ht)
  have hcategory := Category.ofName?_eq_some_iff.mp hc
  obtain ⟨hcasts, hcustoms⟩ := hooks_of_standard c t ht hcategory
  exact ⟨c, hcategory, hcasts, hcustoms, hkey t ht⟩

/-- A parent link between standard terms stays in the category. -/
theorem parent_of_mem (ht : t ∈ standardTerms) {parent : String} (hparent : t.parent = some parent)
    (h : (standard maxDepth).lookup parent = some u) :
    u ∈ standardTerms ∧ u.category = t.category := by
  have hslash : ∀ s ∈ standardTerms, s.parent.bind afterSlash? = none := by decide +kernel
  have hcategory : ∀ s ∈ standardTerms, ∀ p ∈ standardTerms, s.parent = some p.key →
      p.category = s.category := by decide +kernel
  have hu := mem_standard_of_lookup h
  have hkey : u.key = parent := key_of_lookup (by simpa [hparent] using hslash t ht) h
  exact ⟨hu, hcategory t ht u hu (hkey ▸ hparent)⟩

private theorem climbs_standard (h : (standard maxDepth).Climbs t chain) (ht : t ∈ standardTerms) :
    ∀ u ∈ chain, u ∈ standardTerms ∧ u.category = t.category := by
  induction h with
  | last _ => simpa using ht
  | link hparent _ hlookup _ ih =>
      obtain ⟨hu, hcategory⟩ := parent_of_mem ht hparent hlookup
      rw [hcategory] at ih
      exact List.forall_mem_cons.mpr ⟨⟨ht, rfl⟩, ih hu⟩

private theorem climbs_of_resolve (h : (standard maxDepth).resolve reference = .ok chain) :
    ∃ t ∈ standardTerms, (standard maxDepth).lookup reference = some t ∧
      (standard maxDepth).Climbs t chain := by
  obtain ⟨t, hlookup, hclimbs, -⟩ := resolve_eq_ok_iff.mp h
  exact ⟨t, mem_standard_of_lookup hlookup, hlookup, hclimbs⟩

private theorem isPlain_of_climbs (h : (standard maxDepth).Climbs t chain) (ht : t ∈ standardTerms)
    (hc : t.category = c.name) : Hierarchy.IsPlain c chain where
  nonempty := by
    rintro rfl
    cases h
  runs u hu := by
    obtain ⟨hmem, hcategory⟩ := climbs_standard h ht u hu
    obtain ⟨d, hd⟩ := runsStandard_of_mem hmem
    obtain rfl : d = c := Category.name_injective (hd.category.symm.trans (hcategory.trans hc))
    exact hd
  axes u hu := by
    have hnone : ∀ s ∈ standardTerms, s.keyAxis.isNone ∧ s.valueAxis.isNone := by decide
    simpa using hnone u (climbs_standard h ht u hu).1

theorem isPlain_of_resolve (h : (standard maxDepth).resolve reference = .ok chain) :
    ∃ c, Hierarchy.IsPlain c chain := by
  obtain ⟨t, ht, -, hclimbs⟩ := climbs_of_resolve h
  obtain ⟨c, hc⟩ := runsStandard_of_mem ht
  exact ⟨c, isPlain_of_climbs hclimbs ht hc.category⟩

theorem eq_singleton_of_climbs (h : r.Climbs t chain) (hroot : t.parent = some Vocabulary.root) :
    chain = [t] :=
  h.unique (.last hroot)

/-- The object type is alone in its chain, and no other chain counts as one of objects. -/
theorem isObject_of_resolve (h : (standard maxDepth).resolve reference = .ok chain)
    (hplain : Hierarchy.IsPlain c chain) :
    isObject chain = true ↔ c = .object ∧ ∃ t, chain = [t] := by
  have hobject : ∀ s ∈ standardTerms, s.key = Vocabulary.object ↔
      s.category = Category.object.name := by decide
  have hroot : ∀ s ∈ standardTerms, s.category = Category.object.name →
      s.parent = some Vocabulary.root := by decide
  obtain ⟨t, ht, -, hclimbs⟩ := climbs_of_resolve h
  have hhead := hclimbs.head
  have htc := hplain.category t (List.mem_of_head? hhead)
  rw [isObject, hhead, Option.any_some, beq_iff_eq, hobject t ht, htc]
  constructor
  · intro hname
    refine ⟨Category.name_injective hname, t, eq_singleton_of_climbs hclimbs ?_⟩
    exact hroot t ht (htc.trans hname)
  · rintro ⟨rfl, -⟩
    rfl

theorem containers_lookup {format key : String} (h : containers.lookup format = some key) :
    format = "list" ∧ key = Vocabulary.list ∨ format = "set" ∧ key = Vocabulary.set := by
  simp only [containers, List.lookup_cons, List.lookup_nil] at h
  split at h
  · rename_i hformat
    exact .inl ⟨beq_iff_eq.mp hformat, (Option.some.inj h).symm⟩
  · split at h
    · rename_i hformat
      exact .inr ⟨beq_iff_eq.mp hformat, (Option.some.inj h).symm⟩
    · contradiction

/-- The chain of a container; the term of sets is in it if the container is the set. -/
theorem isPlain_of_container {format key : String} (hkey : containers.lookup format = some key)
    (h : (standard maxDepth).resolve key = .ok chain) :
    Hierarchy.IsPlain .list chain ∧ ((∃ u ∈ chain, u.key = Vocabulary.set) ↔ format = "set") := by
  have hlist : ∀ s ∈ standardTerms, s.key = Vocabulary.list ∨ s.key = Vocabulary.set →
      s.category = Category.list.name := by decide
  have hroot : ∀ s ∈ standardTerms, s.key = Vocabulary.list →
      s.parent = some Vocabulary.root := by decide
  obtain ⟨t, ht, hlookup, hclimbs⟩ := climbs_of_resolve h
  rcases containers_lookup hkey with ⟨rfl, rfl⟩ | ⟨rfl, rfl⟩
  · have htkey : t.key = Vocabulary.list := key_of_lookup (by decide) hlookup
    refine ⟨isPlain_of_climbs hclimbs ht (hlist t ht (.inl htkey)), ?_⟩
    rw [eq_singleton_of_climbs hclimbs (hroot t ht htkey)]
    simp [htkey, Vocabulary.list, Vocabulary.set]
  · have htkey : t.key = Vocabulary.set := key_of_lookup (by decide) hlookup
    refine ⟨isPlain_of_climbs hclimbs ht (hlist t ht (.inr htkey)), ?_⟩
    simp only [iff_true]
    exact ⟨t, List.mem_of_head? hclimbs.head, htkey⟩

end Registry

end TermRules
