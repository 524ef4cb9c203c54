import TermRules.Proofs.Record.Uniform

/-!
What a further descendant does to the record of a hierarchy of one category. Patterns, hooks, marks
and decimals only ever accumulate. Intervals narrow as long as their bounds have not crossed; bounds
that have crossed are put in order before the descendant's own are taken in, and what lies between
them is let in again.
-/

namespace TermRules

/-- Each mark of `m` is one of `n`. -/
structure Marks.KeptIn (m n : Marks) : Prop where
  url : m.url = true → n.url = true
  hexadecimal : m.hexadecimal = true → n.hexadecimal = true
  email : m.email = true → n.email = true
  integer : m.integer = true → n.integer = true
  timestamp : m.timestamp = true → n.timestamp = true
  set : m.set = true → n.set = true
  reference : m.reference = true → n.reference = true

structure Constraints.NaNFree (k : Constraints) : Prop where
  length : ∀ i, k.length = some i → i.NaNFree
  range : ∀ i, k.range = some i → i.NaNFree
  size : ∀ i, k.size = some i → i.NaNFree

namespace Record

/-- `s` demands what `r` demands apart from intervals. -/
structure Extends (s r : Record Number) : Prop where
  decimals : ∀ d, r.decimals = some d → ∃ e, s.decimals = some e ∧ e ≤ d
  regex : r.regex <+: s.regex
  casts : r.casts <+: s.casts
  customs : r.customs <+: s.customs
  marks : r.marks.KeptIn s.marks

/-- Every number in an interval of `s` is in that of `r`. -/
def Narrows (s r : Record Number) : Prop :=
  ∀ x, (Interval.Admits s.length x → Interval.Admits r.length x) ∧
    (Interval.Admits s.range x → Interval.Admits r.range x) ∧
    (Interval.Admits s.size x → Interval.Admits r.size x)

/-- The term lets a number in again that lies between crossed bounds of the record. -/
def ReopenedBy (r : Record Number) (t : Term) (x : Number) : Prop :=
  Interval.Reopens r.length t.constraints.length x ∨
    Interval.Reopens r.range t.constraints.range x ∨
    Interval.Reopens r.size t.constraints.size x

private theorem eraseDups_prefix (xs ys : List String) : xs.eraseDups <+: (xs ++ ys).eraseDups := by
  rw [List.eraseDups_append]
  exact List.prefix_append _ _

private theorem least_le {a b : Option Int} {d : Int} (h : a = some d) :
    ∃ e, least a b = some e ∧ e ≤ d := by
  subst h
  cases b with
  | none => exact ⟨d, rfl, le_rfl⟩
  | some y => exact ⟨min d y, rfl, min_le_left d y⟩

private theorem ofRun_extends (c : Category) (run : List Term) (t : Term) :
    (ofRun c (run ++ [t])).Extends (ofRun c run) where
  decimals d hd := by
    cases c with
    | numeric =>
        have hleast := min?_filterMap_concat (fun t => t.constraints.decimals) run t
        simp only [ofRun, numericOfRun] at hd ⊢
        rw [hleast]
        exact least_le hd
    | any | boolean | text | list | struct | object => contradiction
  regex := by
    cases c with
    | text =>
        simp only [ofRun, textOfRun, List.flatMap_append]
        exact List.prefix_append _ _
    | any | boolean | numeric | list | struct | object => exact List.prefix_rfl
  casts := by
    simp only [ofRun, List.flatMap_append]
    exact eraseDups_prefix _ _
  customs := by
    simp only [ofRun, List.flatMap_append]
    exact eraseDups_prefix _ _
  marks := by
    cases c with
    | text | numeric | list =>
        constructor <;> simp +contextual [ofRun, textOfRun, numericOfRun, listOfRun, hasKey]
    | any | boolean | struct | object => constructor <;> exact id

section Intervals

variable {run : List Term} {t : Term}

theorem nanFree_map {f : Term → Option (Interval Number)}
    (free : ∀ u ∈ run, ∀ i, f u = some i → i.NaNFree) :
    ∀ i, some i ∈ run.map f → i.NaNFree := by
  intro i hi
  obtain ⟨u, hu, hfu⟩ := List.mem_map.mp hi
  exact free u hu i hfu

/-- The intervals `f` of a run narrow with one more term, except where this one reopens. -/
theorem admits_of_admits_mergeAll_iff {f : Term → Option (Interval Number)}
    (free : ∀ u ∈ run ++ [t], ∀ i, f u = some i → i.NaNFree) (x : Number) :
    (Interval.Admits (Interval.mergeAll ((run ++ [t]).map f)) x →
        Interval.Admits (Interval.mergeAll (run.map f)) x) ↔
      ¬ Interval.Reopens (Interval.mergeAll (run.map f)) (f t) x := by
  have hrun : ∀ u ∈ run, ∀ i, f u = some i → i.NaNFree :=
    fun u hu => free u (List.mem_append_left _ hu)
  rw [List.map_append, List.map_singleton, Interval.mergeAll_concat]
  exact Interval.admits_of_admits_merge_iff (Interval.NaNFree.mergeAll (nanFree_map hrun))
    (free t (by simp)) x

private theorem not_reopens_none (incoming : Option (Interval Number)) (x : Number) :
    ¬ Interval.Reopens none incoming x := by
  simp [Interval.Reopens]

private theorem ofRun_narrows_iff (c : Category) (free : ∀ u ∈ run ++ [t], u.constraints.NaNFree) :
    (ofRun c (run ++ [t])).Narrows (ofRun c run) ↔ ∀ x, ¬ (ofRun c run).ReopenedBy t x := by
  refine forall_congr' fun x => ?_
  rw [ReopenedBy, not_or, not_or]
  cases c with
  | text =>
      have h := admits_of_admits_mergeAll_iff (fun u hu => (free u hu).length) x
      simp only [ofRun, textOfRun, h, not_reopens_none, not_false_eq_true, imp_self, and_self]
  | numeric =>
      have h := admits_of_admits_mergeAll_iff (fun u hu => (free u hu).range) x
      simp only [ofRun, numericOfRun, h, not_reopens_none, not_false_eq_true, imp_self]
  | list =>
      have h := admits_of_admits_mergeAll_iff (fun u hu => (free u hu).size) x
      simp only [ofRun, listOfRun, h, not_reopens_none, not_false_eq_true, imp_self]
  | any | boolean | struct | object =>
      simp only [ofRun, objectOfRun, not_reopens_none, not_false_eq_true, imp_self, and_self]

end Intervals

/-- A further descendant keeps every other demand of a hierarchy, and it narrows the intervals
unless it lets a number in again. -/
theorem descendant_narrows_iff {c : Category} (hc : c = .text ∨ c = .numeric ∨ c = .list)
    {h : Hierarchy} {t : Term} (hcat : ∀ u ∈ t :: h, u.category = c.name)
    (free : ∀ u ∈ t :: h, u.constraints.NaNFree) :
    ∃ r s, ofHierarchy h = .ok r ∧ ofHierarchy (t :: h) = .ok s ∧ s.Extends r ∧
      (s.Narrows r ↔ ∀ x, ¬ r.ReopenedBy t x) := by
  have hobject : c ≠ .object := by
    rintro rfl
    simp at hc
  obtain ⟨r, hr, hrun⟩ := ofHierarchy_of_category_or_nil hobject
    fun u hu => hcat u (List.mem_cons_of_mem t hu)
  have hs : ofHierarchy (t :: h) = .ok (ofRun c (h.reverse ++ [t])) := by
    rw [← List.reverse_cons]
    exact ofHierarchy_of_category hobject (List.cons_ne_nil t h) hcat
  have hextends := ofRun_extends c h.reverse t
  have hnarrows : (ofRun c (h.reverse ++ [t])).Narrows (ofRun c h.reverse) ↔ _ :=
    ofRun_narrows_iff c fun u hu => free u (by simpa [or_comm] using hu)
  rw [← hrun] at hextends hnarrows
  exact ⟨r, _, hr, hs, ⟨hextends.1, hextends.2, hextends.3, hextends.4, hextends.5⟩, hnarrows⟩

/-- A term of numbers from `lower` to `upper`. -/
def numbersBetween (key : String) (lower upper : Int) : Term where
  id := key
  key := key
  category := "numeric"
  constraints := { range := some ⟨.int lower, .int upper, true, true⟩ }

theorem descendant_narrows_of_overlap :
    ∃ r s, ofHierarchy [numbersBetween "wide" 0 10] = .ok r ∧
      ofHierarchy [numbersBetween "high" 5 20, numbersBetween "wide" 0 10] = .ok s ∧
      s.Narrows r := by
  have hfree (key : String) (lower upper : Int) :
      (numbersBetween key lower upper).constraints.NaNFree := by
    constructor <;>
      simp [numbersBetween, Interval.NaNFree, Number.IsNaN, Number.point?]
  obtain ⟨r, s, hr, hs, -, hiff⟩ := descendant_narrows_iff (.inr (.inl rfl))
    (h := [numbersBetween "wide" 0 10]) (t := numbersBetween "high" 5 20)
    (by decide) (by simp [hfree])
  refine ⟨r, s, hr, hs, hiff.mpr fun x => ?_⟩
  have hrange : r = { category := some .numeric, range := some ⟨.int 0, .int 10, true, true⟩ } :=
    (Except.ok.inj hr).symm
  rw [hrange]
  rintro (h | ⟨k, i, hk, -, hreversed, -⟩ | h)
  · exact not_reopens_none _ x h
  · cases hk
    exact absurd hreversed (by decide)
  · exact not_reopens_none _ x h

/-- Nothing is both at most one and at least two, but a third constraint forgets that. -/
theorem descendant_widens_crossed_bounds :
    ∃ r s, ofHierarchy [numbersBetween "high" 2 3, numbersBetween "low" 0 1] = .ok r ∧
      ofHierarchy [numbersBetween "wide" 0 10, numbersBetween "high" 2 3,
        numbersBetween "low" 0 1] = .ok s ∧
      ¬ s.Narrows r := by
  refine ⟨_, _, rfl, rfl, fun h => ?_⟩
  have hone : Interval.Admits (some ⟨.int 1, .int 2, true, true⟩) (.int 1) := by
    intro i hi
    cases hi
    exact ⟨.inr (by decide), .inl (by decide)⟩
  have hcrossed : Interval.Contains ⟨.int 2, .int 1, true, true⟩ (.int 1) :=
    (h (.int 1)).2.1 hone _ rfl
  refine Interval.not_contains_of_reversed ?_ (by decide) _ hcrossed
  simp [Interval.NaNFree, Number.IsNaN, Number.point?]

end Record

end TermRules
