import TermRules.Proofs.Registry.Extension
import TermRules.Proofs.Registry.Simulation

/-!
Two spellings of one reference: the key of a term, and its identifier, which is the key in the
collection of terms. Look-ups take either, so a term resolves under both in the same way, and so do
all references when parent links are spelled otherwise. The link to the root is looked up nowhere
and is recognised in one spelling only: with the other one it leads to no root, and the terms below
it are no types any more.
-/

namespace TermRules

/-- The same failure about another reference. -/
def Failure.withReference (reference : String) : Failure → Failure
  | .unknownType _ => .unknownType reference
  | .notAType _ => .notAType reference
  | .tooDeep _ maxDepth => .tooDeep reference maxDepth
  | f => f

namespace Registry

variable {r r' : Registry} {t t' : Term} {key reference : String}

/-- The identifier of the term with the key. -/
def identifierOf (key : String) : String :=
  "terms/" ++ key

/-- Keys hold no slash, and identifiers are made of them. -/
structure HasIdentifiers (r : Registry) : Prop where
  keys : ∀ t ∈ r.terms, '/' ∉ t.key.toList
  identifiers : ∀ t ∈ r.terms, t.id = identifierOf t.key

private theorem slash_mem_identifierOf (key : String) : '/' ∈ (identifierOf key).toList := by
  simp [identifierOf]

private theorem afterSlash?_identifierOf (key : String) :
    afterSlash? (identifierOf key) = some key := by
  refine afterSlash?_eq_some_iff.mpr ⟨"terms", by decide, ?_⟩
  rw [identifierOf, ← String.toList_inj]
  simp

private theorem afterSlash?_of_key (h : '/' ∉ key.toList) : afterSlash? key = none := by
  rw [Option.eq_none_iff_forall_ne_some]
  intro behind hbehind
  obtain ⟨collection, -, rfl⟩ := afterSlash?_eq_some_iff.mp hbehind
  simp at h

private theorem lookup_of_key (h : '/' ∉ key.toList) : r.lookup key = r.ofKey? key := by
  rw [lookup, afterSlash?_of_key h]
  cases r.ofKey? key <;> rfl

private theorem lookup_identifierOf (hkeys : ∀ t ∈ r.terms, '/' ∉ t.key.toList) (key : String) :
    r.lookup (identifierOf key) = r.ofKey? key := by
  have hnone : r.ofKey? (identifierOf key) = none := by
    rw [ofKey?_eq_none_iff]
    intro t ht heq
    exact hkeys t ht (heq ▸ slash_mem_identifierOf key)
  rw [lookup, hnone, afterSlash?_identifierOf, Option.bind_some]

/-- What a reference resolves to is settled by the term that it leads to. -/
theorem resolve_of_lookup_eq {spelled : String} (h : r.lookup spelled = r.lookup reference) :
    r.resolve spelled = (r.resolve reference).mapError (·.withReference spelled) := by
  rw [resolve, resolve, h]
  cases r.lookup reference with
  | none => rfl
  | some t =>
      dsimp only
      cases r.climb (r.terms.length + 1) [] t with
      | none => rfl
      | some chain =>
          dsimp only
          split <;> rfl

/-- A parent link that is a key may be spelled as an identifier instead. -/
inductive Respells : Term → Term → Prop
  | kept (t : Term) : Respells t t
  | link {t : Term} {key : String} (hparent : t.parent = some key) (hkey : '/' ∉ key.toList) :
      Respells t { t with parent := some (identifierOf key) }

/-- The same terms, with any of their parent links spelled otherwise. -/
structure IsRespelling (r r' : Registry) : Prop where
  maxDepth : r'.maxDepth = r.maxDepth
  terms : List.Forall₂ Respells r.terms r'.terms

private theorem Respells.same_key (h : Respells t t') : t'.key = t.key := by
  cases h <;> rfl

private theorem find?_of_respells {ts ts' : List Term} (h : List.Forall₂ Respells ts ts')
    (key : String) :
    Option.Rel Respells (ts.find? fun t => t.key = key) (ts'.find? fun t => t.key = key) := by
  induction h with
  | nil => exact .none
  | @cons t t' ts ts' hrespells _ ih =>
      rw [List.find?_cons, List.find?_cons, hrespells.same_key]
      cases decide (t.key = key) with
      | true => exact .some hrespells
      | false => exact ih

private theorem keys_of_respells {ts ts' : List Term} (h : List.Forall₂ Respells ts ts')
    (hkeys : ∀ t ∈ ts, '/' ∉ t.key.toList) : ∀ t ∈ ts', '/' ∉ t.key.toList := by
  induction h with
  | nil => exact hkeys
  | cons hrespells _ ih =>
      obtain ⟨ht, hts⟩ := List.forall_mem_cons.mp hkeys
      exact List.forall_mem_cons.mpr ⟨hrespells.same_key ▸ ht, ih hts⟩

/-- No look-up comes to a term whose link to the root is spelled otherwise. -/
def KeepsRootLinks (r r' : Registry) : Prop :=
  ∀ key t t', r.ofKey? key = some t → r'.ofKey? key = some t' →
    t.parent = some Vocabulary.root → t'.parent = some Vocabulary.root

/-- The term found under a key in one registry and the term found under it in a respelling. -/
def SameFound (r r' : Registry) (t t' : Term) : Prop :=
  Respells t t' ∧ r.ofKey? t.key = some t ∧ r'.ofKey? t.key = some t'

namespace IsRespelling

private theorem rel_ofKey? (h : r.IsRespelling r') (key : String) :
    Option.Rel (SameFound r r') (r.ofKey? key) (r'.ofKey? key) := by
  have hrel : Option.Rel Respells (r.ofKey? key) (r'.ofKey? key) := find?_of_respells h.terms key
  cases hfound : r.ofKey? key with
  | none =>
      rw [eq_none_of_rel_none hrel hfound]
      exact .none
  | some t =>
      obtain ⟨t', hfound', hrespells⟩ := exists_of_rel_some hrel hfound
      rw [hfound']
      exact .some ⟨hrespells, ofKey?_key hfound, hrespells.same_key ▸ ofKey?_key hfound'⟩

private theorem rel_lookup (h : r.IsRespelling r') (reference : String) :
    Option.Rel (SameFound r r') (r.lookup reference) (r'.lookup reference) := by
  have hrel := h.rel_ofKey? reference
  rw [lookup, lookup]
  cases hfound : r.ofKey? reference with
  | some t =>
      obtain ⟨t', hfound', hsame⟩ := exists_of_rel_some hrel hfound
      rw [hfound']
      exact .some hsame
  | none =>
      rw [eq_none_of_rel_none hrel hfound]
      cases afterSlash? reference with
      | none => exact .none
      | some key => exact h.rel_ofKey? key

end IsRespelling

/-- A respelling that leaves the links to the root as they are keeps step. -/
theorem simulates_of_respelling (hkeys : ∀ t ∈ r.terms, '/' ∉ t.key.toList)
    (h : r.IsRespelling r') (hroots : KeepsRootLinks r r') : Simulates r r' (SameFound r r') where
  maxDepth := h.maxDepth
  key := fun t t' hsame => hsame.1.same_key
  orphaned := by
    rintro t t' ⟨hrespells, -⟩ hnone
    cases hrespells with
    | kept => exact hnone
    | link hparent _ => simp [hnone] at hparent
  rooted := fun t t' hsame hparent => hroots _ _ _ hsame.2.1 hsame.2.2 hparent
  linked := by
    rintro t t' parent ⟨hrespells, -⟩ hparent hroot
    have hrel := h.rel_lookup parent
    cases hrespells with
    | kept => exact ⟨parent, hparent, hroot, hrel⟩
    | @link key hkey hslash =>
        obtain rfl : key = parent := by simpa [hkey] using hparent
        refine ⟨identifierOf key, rfl, ?_, ?_⟩
        · intro heq
          have hslash : '/' ∈ Vocabulary.root.toList := heq ▸ slash_mem_identifierOf key
          exact absurd hslash (by decide)
        · rw [lookup_identifierOf (keys_of_respells h.terms hkeys), ← lookup_of_key hslash]
          exact hrel

/-- The keys along the chain of a reference. -/
def chainKeys (r : Registry) (reference : String) : Except Failure (List String) :=
  (r.resolve reference).map (·.map Term.key)

private theorem chainKeys_of_respelling (hkeys : ∀ t ∈ r.terms, '/' ∉ t.key.toList)
    (h : r.IsRespelling r') (hroots : KeepsRootLinks r r') (reference : String) :
    r'.chainKeys reference = r.chainKeys reference := by
  have hsim := simulates_of_respelling hkeys h hroots
  rw [chainKeys, chainKeys]
  obtain ⟨f, hr, hr'⟩ | ⟨chain, chain', hr, hr', hchains⟩ := hsim.resolve (h.rel_lookup reference)
  · rw [hr, hr']
  · rw [hr, hr']
    exact congrArg Except.ok (hsim.keys hchains)

private theorem keepsRootLinks_of_chainKeys (hdepth : 1 ≤ r.maxDepth)
    (hsame : ∀ reference, r'.chainKeys reference = r.chainKeys reference) :
    KeepsRootLinks r r' := by
  intro key t t' ht ht' hroot
  have hchain : r.IsChainOf key [t] := ⟨⟨t, lookup_of_ofKey? ht, .last hroot⟩, by simp⟩
  have hok : r.resolve key = .ok [t] :=
    resolve_eq_ok_iff_isChainOf.mpr ⟨hchain, by simpa using hdepth⟩
  have hkeys := hsame key
  rw [chainKeys, chainKeys, hok] at hkeys
  cases hok' : r'.resolve key with
  | error f => simp [hok', Except.map] at hkeys
  | ok chain =>
      obtain ⟨⟨⟨u, hu, hclimbs⟩, -⟩, -⟩ := resolve_eq_ok_iff_isChainOf.mp hok'
      rw [lookup_of_ofKey? ht', Option.some.injEq] at hu
      subst hu
      have hlength : chain.length = 1 := by
        rw [hok'] at hkeys
        simpa using congrArg List.length (Except.ok.inj hkeys)
      cases hclimbs with
      | last hparent => exact hparent
      | link _ _ _ hrest => cases hrest <;> simp at hlength

/-- The key and the identifier of a term resolve alike. Spelling parent links otherwise changes no
chain of keys and no failure as long as the links to the root stay as they are, and wherever any
chain is shallow enough only then. -/
theorem spellings_agree (hids : r.HasIdentifiers) (h : r.IsRespelling r') :
    (∀ t ∈ r.terms, r.resolve t.id = (r.resolve t.key).mapError (·.withReference t.id)) ∧
      (KeepsRootLinks r r' → ∀ reference, r'.chainKeys reference = r.chainKeys reference) ∧
      (1 ≤ r.maxDepth → (∀ reference, r'.chainKeys reference = r.chainKeys reference) →
        KeepsRootLinks r r') := by
  refine ⟨fun t ht => ?_, chainKeys_of_respelling hids.keys h, keepsRootLinks_of_chainKeys⟩
  refine resolve_of_lookup_eq ?_
  rw [hids.identifiers t ht, lookup_identifierOf hids.keys, lookup_of_key (hids.keys t ht)]

/-- Percentages, and discounts below them. -/
def shares (percentParent discountParent : String) : Registry where
  maxDepth := 10
  terms := [
    { id := "terms/percent", key := "percent", category := "numeric",
      parent := some percentParent },
    { id := "terms/discount", key := "discount", category := "numeric",
      parent := some discountParent }]

private theorem hasIdentifiers_shares : (shares Vocabulary.root "percent").HasIdentifiers :=
  ⟨by decide, by decide⟩

theorem spellings_agree_discount :
    let plain := shares Vocabulary.root "percent"
    let linked := shares Vocabulary.root "terms/percent"
    plain.HasIdentifiers ∧ plain.IsRespelling linked ∧ KeepsRootLinks plain linked ∧
      ∀ reference, linked.chainKeys reference = plain.chainKeys reference := by
  intro plain linked
  have hlinked : plain.IsRespelling linked :=
    ⟨rfl, .cons (.kept _) (.cons (@Respells.link _ "percent" rfl (by decide)) .nil)⟩
  have hroots : KeepsRootLinks plain linked := by
    intro key t t' ht ht' hroot
    have hkey : t.key = key := by simpa using List.find?_some ht
    have hmem : t ∈ plain.terms := List.mem_of_find?_eq_some ht
    simp only [plain, shares, List.mem_cons, List.not_mem_nil, or_false] at hmem
    rcases hmem with rfl | rfl
    · subst hkey
      cases ht'
      exact hroot
    · exact absurd hroot (by decide)
  exact ⟨hasIdentifiers_shares, hlinked, hroots,
    (spellings_agree hasIdentifiers_shares hlinked).2.1 hroots⟩

/-- With the link to the root spelled as an identifier, percentages are no type any more. -/
theorem percent_below_spelled_root :
    let plain := shares Vocabulary.root "percent"
    let linked := shares "terms/:type" "percent"
    plain.HasIdentifiers ∧ plain.IsRespelling linked ∧
      plain.chainKeys "percent" = .ok ["percent"] ∧
      linked.resolve "percent" = .error (.notAType "percent") :=
  ⟨hasIdentifiers_shares,
    ⟨rfl, .cons (@Respells.link _ Vocabulary.root rfl (by decide)) (.cons (.kept _) .nil)⟩,
    rfl, rfl⟩

end Registry

end TermRules
