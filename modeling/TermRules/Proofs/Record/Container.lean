import TermRules.Proofs.Record.Runs

/-!
Hierarchies that are one run, or that end in the terms of a container. What stands in front of the
container becomes the record of its elements, as long as the two categories differ where they meet.
-/

namespace TermRules

namespace Record

variable {c d : Category} {h inner outer : Hierarchy}

private theorem runs_of_category (hne : h ≠ []) (hcat : ∀ t ∈ h, t.category = c.name) :
    runs h = [h.reverse] := by
  refine List.splitBy_of_isChain (by simpa using hne) ?_
  refine List.Pairwise.isChain (List.pairwise_of_forall_mem_list fun t ht u hu => ?_)
  simp [hcat t (by simpa using ht), hcat u (by simpa using hu)]

private theorem categoryOf_of_category (hne : h ≠ []) (hcat : ∀ t ∈ h, t.category = c.name) :
    categoryOf h = c := by
  obtain ⟨t, rest, rfl⟩ := List.exists_cons_of_ne_nil hne
  exact (categoryOf_append (List.cons_ne_nil t []) rest).trans
    (categoryOf_singleton (hcat t (by simp)))

theorem runRecords_of_category (hne : h ≠ []) (hcat : ∀ t ∈ h, t.category = c.name) :
    runRecords h = [ofRun c h.reverse] := by
  have hreverse : categoryOf h.reverse = c :=
    categoryOf_of_category (by simpa using hne) (by simpa using hcat)
  rw [runRecords, runs_of_category hne hcat, List.map_singleton, hreverse]

/-- Where the category changes between them, a hierarchy and one above it keep their own runs. -/
theorem runs_append (h : ∀ t ∈ inner.getLast?, ∀ u ∈ outer.head?, t.category ≠ u.category) :
    runs (inner ++ outer) = runs outer ++ runs inner := by
  rw [runs, List.reverse_append, List.splitBy_append, runs, runs]
  simp only [List.getLast?_reverse, List.head?_reverse, beq_eq_false_iff_ne]
  exact fun u hu t ht => (h t ht u hu).symm

/-- Terms of one category compile, if they do, to the record of the run that they are. -/
theorem eq_ofRun_of_category {r : Record Number} (hr : ofHierarchy h = .ok r) (hne : h ≠ [])
    (hcat : ∀ t ∈ h, t.category = c.name) : r = ofRun c h.reverse := by
  rw [ofHierarchy_eq_chain hr, runRecords_of_category hne hcat, chain]

theorem runRecords_append_of_category (hinner : inner ≠ []) (hc : ∀ t ∈ inner, t.category = c.name)
    (houter : outer ≠ []) (hd : ∀ t ∈ outer, t.category = d.name) (hcd : c ≠ d) :
    runRecords (inner ++ outer) = [ofRun d outer.reverse, ofRun c inner.reverse] := by
  have hmeet : ∀ t ∈ inner.getLast?, ∀ u ∈ outer.head?, t.category ≠ u.category := by
    intro t ht u hu
    rw [hc t (List.mem_of_getLast? ht), hd u (List.mem_of_head? hu)]
    exact fun hname => hcd (Category.name_injective hname)
  rw [runRecords, runs_append hmeet, List.map_append, ← runRecords, ← runRecords,
    runRecords_of_category houter hd, runRecords_of_category hinner hc, List.singleton_append]

/-- Terms of one category under a container of another compile to its record with theirs below. -/
theorem eq_container_of_category {r : Record Number} (hr : ofHierarchy (inner ++ outer) = .ok r)
    (hinner : inner ≠ []) (hc : ∀ t ∈ inner, t.category = c.name) (houter : outer ≠ [])
    (hd : ∀ t ∈ outer, t.category = d.name) (hcd : c ≠ d) :
    r = { ofRun d outer.reverse with child := some (ofRun c inner.reverse) } := by
  rw [ofHierarchy_eq_chain hr, runRecords_append_of_category hinner hc houter hd hcd]
  rfl

section Walk

variable {level : Record Number} {ls : List (Record Number)}

/-- Taking a term in does not reach the levels that are already closed. -/
theorem extend_append {axes : Axes} {t : Term} (hlevel : level.category = some d) (hcd : c ≠ d) :
    extend c axes t (ls ++ [level]) = extend c axes t ls ++ [level] := by
  cases ls with
  | nil =>
      have hne : ¬ some d = some c := fun h => hcd (Option.some.inj h).symm
      simp only [List.nil_append, extend, hlevel, if_neg hne, List.singleton_append]
  | cons deepest above =>
      simp only [List.cons_append, extend]
      split <;> rfl

private theorem extend_ne_nil (c : Category) (axes : Axes) (t : Term) (ls : List (Record Number)) :
    extend c axes t ls ≠ [] := by
  cases ls with
  | nil => simp [extend]
  | cons deepest above =>
      rw [extend]
      split <;> simp

/-- The walk over a hierarchy in a container of another category is that over the hierarchy by
itself, below the level of the container. Where the one stops the other does. -/
theorem levels_append (houter : levels outer = .ok [level]) (hlevel : level.category = some d)
    (hinner : ∀ t ∈ inner, t.category ≠ d.name) :
    levels (inner ++ outer) = (levels inner).map (· ++ [level]) := by
  induction inner with
  | nil => exact houter
  | cons t general ih =>
      obtain ⟨ht, hgeneral⟩ := List.forall_mem_cons.mp hinner
      rw [List.cons_append, levels_cons, ih hgeneral, levels_cons]
      cases levels general with
      | error stop => rfl
      | ok ls =>
          cases haxes : axesOf t with
          | error f => simp [Except.map]
          | ok found =>
              obtain ⟨c, axes⟩ := found
              have hcd : c ≠ d := fun hcd => ht (hcd ▸ (axesOf_ok haxes).1)
              simp only [Except.map, extend_append hlevel hcd]

private theorem link_concat (hne : ls ≠ []) :
    link (ls ++ [level]) = { level with child := some (link ls) } := by
  rcases List.eq_nil_or_concat' ls with hls | ⟨init, last, rfl⟩
  · exact absurd hls hne
  · simp [link, List.foldl_append]

private theorem levels_ne_nil (hl : levels h = .ok ls) (hne : h ≠ []) : ls ≠ [] := by
  obtain ⟨t, general, rfl⟩ := List.exists_cons_of_ne_nil hne
  obtain ⟨above, c, axes, -, -, rfl⟩ := levels_cons_ok hl
  exact extend_ne_nil c axes t above

/-- A hierarchy in a container compiles to the record of the container with that of the hierarchy by
itself below it, and fails as the hierarchy by itself does. -/
theorem ofHierarchy_append (houter : levels outer = .ok [level]) (hlevel : level.category = some d)
    (hne : inner ≠ []) (hinner : ∀ t ∈ inner, t.category ≠ d.name) :
    ofHierarchy (inner ++ outer) =
      (ofHierarchy inner).map fun element => { level with child := some element } := by
  rw [ofHierarchy_eq, levels_append houter hlevel hinner, ofHierarchy_eq]
  cases hl : levels inner with
  | error stop => rfl
  | ok ls =>
      change Except.ok (link (ls ++ [level])) = Except.ok { level with child := some (link ls) }
      rw [link_concat (levels_ne_nil hl hne)]

end Walk

end Record

end TermRules
