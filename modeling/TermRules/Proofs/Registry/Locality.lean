import TermRules.Proofs.Registry.Extension
import TermRules.Proofs.Registry.Simulation

/-!
What adding a term leaves as it is. Resolving a reference looks up the reference and the parent link
of each term that it comes to, and stops at a key that it has met. A term that none of these
references names does not change the outcome, be it a chain or a failure.
-/

namespace TermRules

namespace Registry

variable {r : Registry} {t u v : Term} {reference parent looked : String} {seen : List String}

private theorem ofKey?_add {key : String} (h : t.key ≠ key) : (r.add t).ofKey? key = r.ofKey? key :=
  find?_place h r.terms

private theorem lookup_add (h : ¬ Names reference t.key) :
    (r.add t).lookup reference = r.lookup reference := by
  rw [Names, not_or, ← afterSlash?_eq_some_iff] at h
  obtain ⟨hkey, hslash⟩ := h
  have hbehind : (afterSlash? reference).bind (r.add t).ofKey? =
      (afterSlash? reference).bind r.ofKey? := by
    cases hafter : afterSlash? reference with
    | none => rfl
    | some key =>
        refine ofKey?_add fun heq => hslash ?_
        rw [hafter, heq]
  rw [lookup, lookup, ofKey?_add (Ne.symm hkey), hbehind]

/-- Two terms that references lead to are the same if they have the same key. -/
theorem eq_of_lookup_of_key (hu : r.lookup reference = some u) (hv : r.lookup looked = some v)
    (hkey : u.key = v.key) : u = v := by
  have hofKey := ofKey?_key_of_lookup hu
  rw [hkey, ofKey?_key_of_lookup hv] at hofKey
  exact (Option.some.inj hofKey).symm

/-- The references that the walk from a reference looks up, where it has met the keys in `seen`: the
reference, and what it looks up from the parent link of the term found, unless the term has been met
or its link is the one to the root. -/
inductive LooksUp (r : Registry) : List String → String → String → Prop
  | here {seen : List String} {reference : String} : LooksUp r seen reference reference
  | above {seen : List String} {reference parent looked : String} {t : Term}
      (hlookup : r.lookup reference = some t) (hnew : t.key ∉ seen)
      (hparent : t.parent = some parent)
      (hroot : parent ≠ Vocabulary.root) (hrest : LooksUp r (t.key :: seen) parent looked) :
      LooksUp r seen reference looked

/-- The link of every term that is come to is looked up, also that of a term come to again: it has
been followed before. -/
theorem LooksUp.link (h : r.LooksUp seen reference looked) (hlookup : r.lookup looked = some u)
    (hparent : u.parent = some parent) (hroot : parent ≠ Vocabulary.root) :
    r.LooksUp seen reference parent ∨ u.key ∈ seen := by
  induction h with
  | @here seen reference =>
      by_cases hseen : u.key ∈ seen
      · exact .inr hseen
      · exact .inl (.above hlookup hseen hparent hroot .here)
  | @above seen reference first looked t ht hnew hp hr _ ih =>
      rcases ih hlookup with habove | hmem
      · exact .inl (.above ht hnew hp hr habove)
      · rcases List.mem_cons.mp hmem with hkey | hseen
        · obtain rfl := eq_of_lookup_of_key hlookup ht hkey
          rw [hparent, Option.some.injEq] at hp
          subst hp
          exact .inl (.above ht hnew hparent hroot .here)
        · exact .inr hseen

/-- The terms are one and the same, which the walk from the reference comes to. -/
def SameReached (r : Registry) (reference : String) (t t' : Term) : Prop :=
  t = t' ∧ ∃ looked, r.LooksUp [] reference looked ∧ r.lookup looked = some t

private theorem rel_sameReached (h : r.LooksUp [] reference looked) :
    Option.Rel (r.SameReached reference) (r.lookup looked) (r.lookup looked) := by
  cases hfound : r.lookup looked with
  | none => exact .none
  | some u => exact .some ⟨rfl, looked, h, hfound⟩

variable {r' : Registry}

/-- A registry that finds the same under every reference looked up keeps step. -/
theorem simulates_of_looksUp (hdepth : r'.maxDepth = r.maxDepth)
    (hsame : ∀ looked, r.LooksUp [] reference looked → r'.lookup looked = r.lookup looked) :
    Simulates r r' (r.SameReached reference) where
  maxDepth := hdepth
  key := by
    rintro t _ ⟨rfl, -⟩
    rfl
  orphaned := by
    rintro t _ ⟨rfl, -⟩ hparent
    exact hparent
  rooted := by
    rintro t _ ⟨rfl, -⟩ hparent
    exact hparent
  linked := by
    rintro t _ parent ⟨rfl, looked, hlooked, hlookup⟩ hparent hroot
    have habove : r.LooksUp [] reference parent := by
      rcases hlooked.link hlookup hparent hroot with habove | hseen
      · exact habove
      · simp at hseen
    refine ⟨parent, hparent, hroot, ?_⟩
    rw [hsame parent habove]
    exact rel_sameReached habove

private theorem resolve_eq_of_looksUp (hdepth : r'.maxDepth = r.maxDepth)
    (hsame : ∀ looked, r.LooksUp [] reference looked → r'.lookup looked = r.lookup looked) :
    r'.resolve reference = r.resolve reference := by
  have hrel : Option.Rel (r.SameReached reference) (r.lookup reference) (r'.lookup reference) := by
    rw [hsame reference .here]
    exact rel_sameReached .here
  obtain ⟨f, h, h'⟩ | ⟨chain, chain', h, h', hchains⟩ :=
    (simulates_of_looksUp hdepth hsame).resolve hrel
  · rw [h, h']
  · have hequal : List.Forall₂ (· = ·) chain chain' := hchains.imp fun _ _ => And.left
    rw [List.forall₂_eq_eq_eq] at hequal
    rw [h, h', hequal]

/-- Adding a term, be it new or in place of another, changes nothing for a reference from which no
reference is looked up that names it. -/
theorem answers_add (hlocal : ∀ looked, r.LooksUp [] reference looked → ¬ Names looked t.key) :
    (r.add t).resolve reference = r.resolve reference ∧
      (r.add t).describe reference = r.describe reference ∧
      (r.add t).contains reference = r.contains reference := by
  have hsame : ∀ looked, r.LooksUp [] reference looked →
      (r.add t).lookup looked = r.lookup looked := fun looked h => lookup_add (hlocal looked h)
  have hdepth : (r.add t).maxDepth = r.maxDepth := rfl
  have hresolve := resolve_eq_of_looksUp hdepth hsame
  refine ⟨hresolve, ?_, ?_⟩
  · rw [describe, describe, hresolve]
  · rw [contains, contains, hsame reference .here]

/-- A price is an amount, a discount refers to a term that is missing. -/
def prices : Registry where
  maxDepth := 10
  terms := [
    { id := "terms/amount", key := "amount", category := "numeric",
      parent := some Vocabulary.root },
    { id := "terms/price", key := "price", category := "numeric", parent := some "terms/amount" },
    { id := "terms/discount", key := "discount", category := "numeric",
      parent := some "terms/ghost" }]

private theorem looksUp_discount (h : prices.LooksUp [] "discount" looked) :
    looked = "discount" ∨ looked = "terms/ghost" := by
  cases h with
  | here => exact .inl rfl
  | above hlookup _ hparent _ hrest =>
      cases hlookup
      cases hparent
      cases hrest with
      | here => exact .inr rfl
      | above hlookup => cases hlookup

/-- An amount in place of the one there is of no concern to discounts, which do not come to it. -/
theorem answers_add_amount :
    (∀ looked, prices.LooksUp [] "discount" looked → ¬ Names looked "amount") ∧
      let replaced := prices.add { id := "terms/amount", key := "amount", category := "text" }
      replaced.resolve "discount" = prices.resolve "discount" ∧
        replaced.describe "discount" = prices.describe "discount" ∧
        replaced.contains "discount" = prices.contains "discount" := by
  have hlocal : ∀ looked, prices.LooksUp [] "discount" looked → ¬ Names looked "amount" := by
    intro looked h
    rw [Names, ← afterSlash?_eq_some_iff]
    rcases looksUp_discount h with rfl | rfl <;> decide
  exact ⟨hlocal, answers_add hlocal⟩

end Registry

end TermRules
