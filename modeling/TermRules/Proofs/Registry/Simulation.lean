import TermRules.Proofs.Registry.Resolution

/-!
Walks of two registries that keep in step. If related terms have the same key, and their parent
links either end alike or lead to related terms, then whole walks do so, and a reference that leads
to related terms resolves alike in both registries. Nothing is asked of terms that are not related.
-/

namespace TermRules

theorem exists_of_rel_some {α β : Type} {R : α → β → Prop} {x : Option α} {y : Option β} {a : α}
    (h : Option.Rel R x y) (hx : x = some a) : ∃ b, y = some b ∧ R a b := by
  subst hx
  cases h with
  | some h => exact ⟨_, rfl, h⟩

theorem eq_none_of_rel_none {α β : Type} {R : α → β → Prop} {x : Option α} {y : Option β}
    (h : Option.Rel R x y) (hx : x = none) : y = none := by
  subst hx
  cases h
  rfl

namespace Registry

/-- Where a walk in `r` goes on from a term, a walk in `r'` goes on from the related one. -/
structure Simulates (r r' : Registry) (related : Term → Term → Prop) : Prop where
  maxDepth : r'.maxDepth = r.maxDepth
  key : ∀ t t', related t t' → t'.key = t.key
  orphaned : ∀ t t', related t t' → t.parent = none → t'.parent = none
  rooted : ∀ t t', related t t' → t.parent = some Vocabulary.root →
    t'.parent = some Vocabulary.root
  linked : ∀ t t' parent, related t t' → t.parent = some parent → parent ≠ Vocabulary.root →
    ∃ parent', t'.parent = some parent' ∧ parent' ≠ Vocabulary.root ∧
      Option.Rel related (r.lookup parent) (r'.lookup parent')

namespace Simulates

variable {r r' : Registry} {related : Term → Term → Prop} {t t' : Term} {chain chain' : Hierarchy}
  {reference : String} {seen : List String}

private theorem climbs (hsim : Simulates r r' related) (hclimbs : r.Climbs t chain)
    (h : related t t') : ∃ chain', r'.Climbs t' chain' ∧ List.Forall₂ related chain chain' := by
  induction hclimbs generalizing t' with
  | last hparent => exact ⟨[t'], .last (hsim.rooted _ _ h hparent), .cons h .nil⟩
  | link hparent hroot hlookup _ ih =>
      obtain ⟨parent', hparent', hroot', hrel⟩ := hsim.linked _ _ _ h hparent hroot
      obtain ⟨u', hlookup', hu⟩ := exists_of_rel_some hrel hlookup
      obtain ⟨rest', hrest', hrelated⟩ := ih hu
      exact ⟨t' :: rest', .link hparent' hroot' hlookup' hrest', .cons h hrelated⟩

private theorem strays (hsim : Simulates r r' related) (hstrays : r.Strays seen t)
    (h : related t t') : r'.Strays seen t' := by
  induction hstrays generalizing t' with
  | returned hseen => exact .returned (hsim.key _ _ h ▸ hseen)
  | orphaned hparent => exact .orphaned (hsim.orphaned _ _ h hparent)
  | dangling hparent hroot hlookup =>
      obtain ⟨parent', hparent', hroot', hrel⟩ := hsim.linked _ _ _ h hparent hroot
      exact .dangling hparent' hroot' (eq_none_of_rel_none hrel hlookup)
  | link hparent hroot hlookup _ ih =>
      obtain ⟨parent', hparent', hroot', hrel⟩ := hsim.linked _ _ _ h hparent hroot
      obtain ⟨u', hlookup', hu⟩ := exists_of_rel_some hrel hlookup
      exact .link hparent' hroot' hlookup' (hsim.key _ _ h ▸ ih hu)

theorem keys (hsim : Simulates r r' related) (h : List.Forall₂ related chain chain') :
    chain'.map Term.key = chain.map Term.key := by
  induction h with
  | nil => rfl
  | cons h _ ih => rw [List.map_cons, List.map_cons, hsim.key _ _ h, ih]

private theorem isChainOf (hsim : Simulates r r' related)
    (h : Option.Rel related (r.lookup reference) (r'.lookup reference))
    (hchain : r.IsChainOf reference chain) :
    ∃ chain', r'.IsChainOf reference chain' ∧ List.Forall₂ related chain chain' := by
  obtain ⟨⟨t, hlookup, hclimbs⟩, hnodup⟩ := hchain
  obtain ⟨t', hlookup', hrelated⟩ := exists_of_rel_some h hlookup
  obtain ⟨chain', hclimbs', hchains⟩ := hsim.climbs hclimbs hrelated
  exact ⟨chain', ⟨⟨t', hlookup', hclimbs'⟩, hsim.keys hchains ▸ hnodup⟩, hchains⟩

/-- A reference that leads to related terms, or in both registries nowhere, resolves alike. -/
theorem resolve (hsim : Simulates r r' related)
    (h : Option.Rel related (r.lookup reference) (r'.lookup reference)) :
    (∃ f, r.resolve reference = .error f ∧ r'.resolve reference = .error f) ∨
      ∃ chain chain', r.resolve reference = .ok chain ∧ r'.resolve reference = .ok chain' ∧
        List.Forall₂ related chain chain' := by
  obtain hnone | ⟨t, hlookup, hstrays⟩ | ⟨chain, hchain⟩ := lookup_cases r reference
  · exact .inl ⟨_, resolve_of_lookup_eq_none hnone,
      resolve_of_lookup_eq_none (eq_none_of_rel_none h hnone)⟩
  · obtain ⟨t', hlookup', hrelated⟩ := exists_of_rel_some h hlookup
    exact .inl ⟨_, resolve_of_strays hlookup hstrays,
      resolve_of_strays hlookup' (hsim.strays hstrays hrelated)⟩
  · obtain ⟨chain', hchain', hchains⟩ := hsim.isChainOf h hchain
    rw [resolve_of_isChainOf hchain, resolve_of_isChainOf hchain', hsim.maxDepth,
      ← hchains.length_eq]
    split
    · exact .inl ⟨_, rfl, rfl⟩
    · exact .inr ⟨chain, chain', rfl, rfl, hchains⟩

end Simulates

end Registry

end TermRules
