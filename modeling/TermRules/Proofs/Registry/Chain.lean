import Mathlib.Data.List.Nodup
import TermRules.Proofs.Success
import TermRules.Registry.Basic

/-!
The chain of a term: the terms that its parent links lead to, up to the root of the taxonomy. The
walk along the links finds it exactly if it is short enough and no key in it comes twice. The part
of a chain from one of its terms on is the chain of that term.
-/

namespace TermRules

namespace Registry

variable {r : Registry} {t u : Term} {chain rest : Hierarchy}

/-- Each term is the one that the parent link in front of it refers to; the last links to
the root. -/
inductive Climbs (r : Registry) : Term → Hierarchy → Prop
  | last {t : Term} (h : t.parent = some Vocabulary.root) : Climbs r t [t]
  | link {t u : Term} {parent : String} {rest : Hierarchy} (h : t.parent = some parent)
      (hroot : parent ≠ Vocabulary.root) (hlookup : r.lookup parent = some u)
      (hrest : Climbs r u rest) : Climbs r t (t :: rest)

theorem Climbs.unique (h : r.Climbs t chain) (h' : r.Climbs t rest) : chain = rest := by
  induction h generalizing rest with
  | last h =>
      cases h' with
      | last _ => rfl
      | link hp hroot _ _ =>
          rw [h, Option.some.injEq] at hp
          exact absurd hp.symm hroot
  | link h hroot hlookup _ ih =>
      cases h' with
      | last hp =>
          rw [h, Option.some.injEq] at hp
          exact absurd hp hroot
      | link hp _ hlookup' hrest' =>
          rw [h, Option.some.injEq] at hp
          subst hp
          rw [hlookup, Option.some.injEq] at hlookup'
          subst hlookup'
          rw [ih hrest']

theorem Climbs.head (h : r.Climbs t chain) : chain.head? = some t := by
  cases h <;> rfl

/-- One step of the walk: it ends below the root, or goes on from the parent. -/
theorem climb_succ_eq_some_iff {steps : Nat} {seen : List String} :
    r.climb (steps + 1) seen t = some chain ↔ t.key ∉ seen ∧
      (t.parent = some Vocabulary.root ∧ chain = [t] ∨
        ∃ parent u rest, t.parent = some parent ∧ parent ≠ Vocabulary.root ∧
          r.lookup parent = some u ∧ r.climb steps (t.key :: seen) u = some rest ∧
          chain = t :: rest) := by
  simp only [climb, List.contains_iff_mem]
  by_cases hseen : t.key ∈ seen
  · simp [hseen]
  · cases hparent : t.parent with
    | none => simp [hseen]
    | some parent =>
        by_cases hroot : parent = Vocabulary.root
        · simp [hseen, hroot, eq_comm]
        · simp [hseen, hroot, Option.bind_eq_some_iff, eq_comm (b := chain)]

theorem climb_eq_some_iff {steps : Nat} {seen : List String} :
    r.climb steps seen t = some chain ↔
      r.Climbs t chain ∧ chain.length ≤ steps ∧ (chain.map Term.key).Nodup ∧
        ∀ u ∈ chain, u.key ∉ seen := by
  induction steps generalizing seen t chain with
  | zero =>
      refine ⟨by simp [climb], ?_⟩
      rintro ⟨h, hlength, -⟩
      cases h <;> simp at hlength
  | succ steps ih =>
      rw [climb_succ_eq_some_iff]
      constructor
      · rintro ⟨hseen, ⟨hparent, rfl⟩ | ⟨parent, u, rest, hparent, hroot, hlookup, hrest, rfl⟩⟩
        · exact ⟨.last hparent, by simp, by simp, by simpa using hseen⟩
        · obtain ⟨hclimbs, hlength, hnodup, hnew⟩ := ih.mp hrest
          have hkeys : ∀ v ∈ rest, v.key ≠ t.key ∧ v.key ∉ seen := by simpa using hnew
          refine ⟨.link hparent hroot hlookup hclimbs, by simpa using hlength, ?_, ?_⟩
          · rw [List.map_cons, List.nodup_cons]
            exact ⟨by simpa using fun v hv => (hkeys v hv).1, hnodup⟩
          · exact List.forall_mem_cons.mpr ⟨hseen, fun v hv => (hkeys v hv).2⟩
      · rintro ⟨h, hlength, hnodup, hnew⟩
        cases h with
        | last hparent => exact ⟨hnew t (by simp), .inl ⟨hparent, rfl⟩⟩
        | @link _ u parent rest hparent hroot hlookup hrest =>
            obtain ⟨hseen, hnew⟩ := List.forall_mem_cons.mp hnew
            rw [List.map_cons, List.nodup_cons] at hnodup
            have hkeys : ∀ v ∈ rest, v.key ∉ t.key :: seen := by
              intro v hv
              have hne : v.key ≠ t.key := fun heq =>
                hnodup.1 (List.mem_map.mpr ⟨v, hv, heq⟩)
              simp [hne, hnew v hv]
            have hfound := ih.mpr ⟨hrest, by simpa using hlength, hnodup.2, hkeys⟩
            exact ⟨hseen, .inr ⟨parent, u, rest, hparent, hroot, hlookup, hfound, rfl⟩⟩

/-- A chain holds the chain of each of its terms, at its end. -/
theorem Climbs.suffix_of_mem (h : r.Climbs t chain) (hu : u ∈ chain) :
    ∃ rest, r.Climbs u rest ∧ rest <:+ chain := by
  induction h with
  | last h =>
      rw [List.mem_singleton] at hu
      subst hu
      exact ⟨_, .last h, List.suffix_rfl⟩
  | link h hroot hlookup hrest ih =>
      rcases List.mem_cons.mp hu with rfl | hu
      · exact ⟨_, .link h hroot hlookup hrest, List.suffix_rfl⟩
      · obtain ⟨rest, hclimbs, hsuffix⟩ := ih hu
        exact ⟨rest, hclimbs, hsuffix.trans (List.suffix_cons _ _)⟩

theorem ofKey?_key {key : String} (h : r.ofKey? key = some t) : r.ofKey? t.key = some t := by
  have hkey : t.key = key := by simpa using List.find?_some h
  rwa [hkey]

theorem ofKey?_key_of_lookup {reference : String} (h : r.lookup reference = some t) :
    r.ofKey? t.key = some t := by
  rw [lookup] at h
  split at h
  · rename_i hfound
    obtain rfl := Option.some.inj h
    exact ofKey?_key hfound
  · obtain ⟨key, -, hfound⟩ := Option.bind_eq_some_iff.mp h
    exact ofKey?_key hfound

/-- A term that some reference finds is found by its key. -/
theorem lookup_key {reference : String} (h : r.lookup reference = some t) :
    r.lookup t.key = some t := by
  rw [lookup, ofKey?_key_of_lookup h]

theorem mem_of_lookup {reference : String} (h : r.lookup reference = some t) : t ∈ r.terms :=
  List.mem_of_find?_eq_some (ofKey?_key_of_lookup h)

theorem Climbs.lookup_key_of_mem (h : r.Climbs t chain) (ht : r.lookup t.key = some t)
    (hu : u ∈ chain) : r.lookup u.key = some u := by
  induction h with
  | last _ =>
      rw [List.mem_singleton] at hu
      rwa [hu]
  | link _ _ hlookup _ ih =>
      rcases List.mem_cons.mp hu with rfl | hu
      · exact ht
      · exact ih (lookup_key hlookup) hu

theorem resolve_eq_ok_iff_climb {reference : String} :
    r.resolve reference = .ok chain ↔
      ∃ t, r.lookup reference = some t ∧ r.climb (r.terms.length + 1) [] t = some chain ∧
        (chain.length : Int) ≤ r.maxDepth := by
  rw [resolve]
  cases r.lookup reference with
  | none => simp
  | some t =>
      simp only [Option.some.injEq, exists_eq_left']
      cases r.climb (r.terms.length + 1) [] t with
      | none => simp
      | some found =>
          dsimp only
          rw [← Int.not_lt, Option.some.injEq]
          split
          · rename_i hdepth
            simp only [reduceCtorEq, false_iff, not_and, not_not]
            rintro rfl
            exact hdepth
          · rename_i hdepth
            rw [Except.ok.injEq]
            exact ⟨fun h => ⟨h, h ▸ hdepth⟩, And.left⟩

theorem resolve_eq_ok_iff {reference : String} :
    r.resolve reference = .ok chain ↔
      ∃ t, r.lookup reference = some t ∧ r.Climbs t chain ∧
        chain.length ≤ r.terms.length + 1 ∧ (chain.map Term.key).Nodup ∧
        (chain.length : Int) ≤ r.maxDepth := by
  simp [resolve_eq_ok_iff_climb, climb_eq_some_iff, and_assoc]

/-- The key of a term of a chain resolves to the part of the chain from that term on. -/
theorem resolve_key_of_mem {reference : String} (h : r.resolve reference = .ok chain)
    (hu : u ∈ chain) :
    ∃ rest, r.resolve u.key = .ok rest ∧ r.Climbs u rest ∧ rest <:+ chain := by
  obtain ⟨t, hlookup, hclimbs, hlength, hnodup, hdepth⟩ := resolve_eq_ok_iff.mp h
  obtain ⟨rest, hrest, hsuffix⟩ := hclimbs.suffix_of_mem hu
  have hle : rest.length ≤ chain.length := hsuffix.length_le
  refine ⟨rest, resolve_eq_ok_iff.mpr ⟨u, ?_, hrest, by omega, ?_, by omega⟩, hrest,
    hsuffix⟩
  · exact hclimbs.lookup_key_of_mem (lookup_key hlookup) hu
  · exact hnodup.sublist (hsuffix.sublist.map _)

end Registry

end TermRules
