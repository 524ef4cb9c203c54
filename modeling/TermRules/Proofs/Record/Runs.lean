import Mathlib.Data.List.SplitBy
import TermRules.Proofs.Record.Level
import TermRules.Proofs.Success

/-!
The record of a hierarchy, said apart from the walk that builds it: read from the most general term
on and cut where the category changes, a hierarchy gives one record for each piece, each linked to
the record of the next. Which hierarchies compile is a question of their own.
-/

namespace TermRules

namespace Record

/-- The terms of a hierarchy, the most general first, cut where the category changes. -/
def runs (h : Hierarchy) : List (List Term) :=
  h.reverse.splitBy fun t u => t.category == u.category

/-- The category that the terms of a run have in common. -/
def categoryOf (run : List Term) : Category :=
  (run.head?.bind fun t => Category.ofName? t.category).getD .any

/-- Records linked, the first one on top. -/
def chain : List (Record Number) → Record Number
  | [] => {}
  | [r] => r
  | r :: s :: rest => { r with child := some (chain (s :: rest)) }

/-- The records of the runs of a hierarchy. -/
def runRecords (h : Hierarchy) : List (Record Number) :=
  (runs h).map fun run => ofRun (categoryOf run) run

theorem chain_cons_category (r : Record Number) (rs : List (Record Number)) :
    (chain (r :: rs)).category = r.category := by
  cases rs <;> rfl

private theorem foldr_link_eq_chain {rs : List (Record Number)} (hne : rs ≠ [])
    (h : ∀ r ∈ rs, r.child = none) :
    rs.foldr (fun level below => some { level with child := below }) none = some (chain rs) := by
  induction rs with
  | nil => contradiction
  | cons r rest ih =>
      cases rest with
      | nil =>
          have hr : r.child = none := h r (by simp)
          cases r
          simp_all [chain]
      | cons s rest =>
          rw [List.foldr_cons, ih (by simp) fun x hx => h x (List.mem_cons_of_mem r hx), chain]

private theorem link_eq_chain {ls : List (Record Number)} (h : ∀ r ∈ ls, r.child = none) :
    link ls = chain ls.reverse := by
  rw [link, List.foldl_eq_foldr_reverse]
  by_cases hne : ls = []
  · subst hne
    rfl
  · rw [foldr_link_eq_chain (by simpa using hne) (by simpa using h)]
    rfl

section Split

variable {t u : Term} {general : Hierarchy} {init : List (List Term)} {run : List Term}

private theorem runs_cons_same (hruns : runs general = init ++ [run]) (hu : run.getLast? = some u)
    (h : u.category = t.category) : runs (t :: general) = init ++ [run ++ [t]] := by
  obtain ⟨hflat, hnil, hin, hbetween⟩ := List.splitBy_eq_iff.mp hruns
  have hrun : run ≠ [] := fun hrun => hnil (by simp [hrun])
  refine List.splitBy_eq_iff.mpr ⟨?_, ?_, ?_, ?_⟩
  · simp [hflat]
  · simp_all
  · intro m hm
    rcases List.mem_append.mp hm with hm | hm
    · exact hin m (List.mem_append_left _ hm)
    · rw [List.mem_singleton.mp hm, List.isChain_append]
      refine ⟨hin run (by simp), List.isChain_singleton t, ?_⟩
      simp [hu, h]
  -- Between the runs nothing changes: the last one has the same first term as before.
  · rw [List.isChain_append] at hbetween ⊢
    refine ⟨hbetween.1, List.isChain_singleton _, fun a ha b hb => ?_⟩
    obtain ⟨hla, hhead, hr⟩ := hbetween.2.2 a ha run (by simp)
    rw [List.head?_singleton, Option.mem_some_iff] at hb
    subst hb
    exact ⟨hla, by simp, by rwa [List.head_append_of_ne_nil hrun]⟩

private theorem runs_cons_switch (hruns : runs general = init ++ [run]) (hu : run.getLast? = some u)
    (h : u.category ≠ t.category) : runs (t :: general) = init ++ [run] ++ [[t]] := by
  have hflat : general.reverse = (init ++ [run]).flatten := (List.splitBy_eq_iff.mp hruns).1
  have hlast : general.reverse.getLast? = some u := by
    rw [hflat, List.flatten_append, List.flatten_singleton, List.getLast?_append, hu]
    rfl
  rw [runs, List.reverse_cons, List.splitBy_append_cons [] (by simpa [hlast] using h)]
  exact congrArg (· ++ [[t]]) hruns

end Split

theorem ofHierarchy_eq_ok_iff {h : Hierarchy} {r : Record Number} :
    ofHierarchy h = .ok r ↔ ∃ ls, levels h = .ok ls ∧ link ls = r := by
  rw [ofHierarchy_eq]
  exact map_eq_ok_iff

private theorem ofAxis_eq_axisRecord {axis : Option (List Term)} {o : Option (Record Number)}
    (h : ofAxis axis = .ok o) : o = axisRecord axis := by
  cases axis with
  | none =>
      simp only [ofAxis, Except.ok.injEq] at h
      subst h
      rfl
  | some terms =>
      rw [ofAxis_some] at h
      cases hl : levels terms with
      | error stop => simp [hl] at h
      | ok ls =>
          simp only [hl, Except.ok.injEq] at h
          subst h
          cases terms with
          | nil => rfl
          | cons t ts =>
              have hc : ofHierarchy (t :: ts) = .ok (link ls) :=
                ofHierarchy_eq_ok_iff.mpr ⟨ls, hl, rfl⟩
              change some (link ls) = (ofHierarchy (t :: ts)).toOption
              rw [hc]
              rfl

theorem axisRecord_eq_some_iff {axis : Option (List Term)} {r : Record Number} :
    axisRecord axis = some r ↔ ∃ terms, axis = some terms ∧ terms ≠ [] ∧
    ofHierarchy terms = .ok r := by
  simp only [axisRecord, Option.bind_eq_some_iff, Option.filter_eq_some_iff, toOption_eq_some_iff,
    Bool.not_eq_true', List.isEmpty_eq_false_iff, and_assoc]

theorem requireText_eq_ok_iff {id : String} {r s : Record Number} :
    requireText id r = .ok s ↔ s.category = some .text ∧ r = s := by
  rw [requireText]
  split
  · rename_i htext
    rw [Except.ok.injEq]
    exact ⟨fun heq => ⟨heq ▸ htext, heq⟩, fun h => h.2⟩
  · rename_i hother
    constructor
    · intro h
      contradiction
    · rintro ⟨htext, rfl⟩
      exact absurd htext hother

/-- Both axes of a term compile where they are there. -/
def AxesCompile (t : Term) : Prop :=
  ∀ axis, t.keyAxis = some axis ∨ t.valueAxis = some axis → ∃ r, ofHierarchy axis = .ok r

private theorem ofAxis_some_compiles {axis : List Term} {o : Option (Record Number)}
    (h : ofAxis (some axis) = .ok o) : ∃ r, ofHierarchy axis = .ok r := by
  rw [ofAxis_some] at h
  cases hl : levels axis with
  | error stop => simp [hl] at h
  | ok ls => exact ⟨link ls, ofHierarchy_eq_ok_iff.mpr ⟨ls, hl, rfl⟩⟩

/-- A term that is taken in names a category; its axes count only if that is the object. -/
theorem axesOf_ok {t : Term} {c : Category} {axes : Axes} (h : axesOf t = .ok (c, axes)) :
    t.category = c.name ∧ AxesOf c axes t ∧ (c = .object → AxesCompile t) := by
  obtain ⟨id, key, category, parent, constraints, casts, customs, keyAxis, valueAxis⟩ := t
  cases hn : Category.ofName? category with
  | none => simp [axesOf, hn] at h
  | some d =>
      have hd : category = d.name := Category.ofName?_eq_some_iff.mp hn
      cases d with
      | object =>
          simp only [axesOf, hn] at h
          obtain ⟨k, hk, h⟩ := bind_eq_ok_iff.mp h
          have hrest : ∃ v, ofAxis valueAxis = .ok v ∧
              (Category.object, Axes.mk k v) = (c, axes) := by
            cases k with
            | none => simpa only [bind_eq_ok_iff, pure_eq_ok_iff, Except.ok.injEq,
                exists_eq_left'] using h
            | some r =>
                obtain ⟨keys, hkeys, h⟩ := bind_eq_ok_iff.mp h
                obtain ⟨s, hs, rfl⟩ := map_eq_ok_iff.mp hkeys
                rw [← (requireText_eq_ok_iff.mp hs).2] at h
                simpa only [bind_eq_ok_iff, pure_eq_ok_iff] using h
          obtain ⟨v, hv, heq⟩ := hrest
          obtain ⟨rfl, rfl⟩ := Prod.mk.inj heq
          refine ⟨hd, fun _ => ?_, fun _ axis haxis => ?_⟩
          · rw [ofAxis_eq_axisRecord hk, ofAxis_eq_axisRecord hv]
          · rcases haxis with rfl | rfl
            · exact ofAxis_some_compiles hk
            · exact ofAxis_some_compiles hv
      | any | boolean | text | numeric | list | struct =>
          simp only [axesOf, hn, Except.ok.injEq, Prod.mk.injEq] at h
          obtain ⟨rfl, -⟩ := h
          exact ⟨hd, by simp [AxesOf], by simp⟩

theorem levels_cons_ok {t : Term} {general : Hierarchy} {ls : List (Record Number)}
    (h : levels (t :: general) = .ok ls) :
    ∃ above c axes, levels general = .ok above ∧ axesOf t = .ok (c, axes) ∧
      ls = extend c axes t above := by
  rw [levels_cons] at h
  cases hg : levels general with
  | error stop => simp [hg] at h
  | ok above =>
      cases ha : axesOf t with
      | error f => simp [hg, ha] at h
      | ok found =>
          simp only [hg, ha, Except.ok.injEq] at h
          exact ⟨above, found.1, found.2, rfl, rfl, h.symm⟩

/-- Every term of a hierarchy that compiles can be taken in. -/
theorem axesOf_of_levels_ok {h : Hierarchy} {ls : List (Record Number)} (hl : levels h = .ok ls) :
    ∀ t ∈ h, ∃ c axes, axesOf t = .ok (c, axes) := by
  induction h generalizing ls with
  | nil => simp
  | cons t general ih =>
      obtain ⟨above, c, axes, hg, ha, -⟩ := levels_cons_ok hl
      intro u hu
      rcases List.mem_cons.mp hu with rfl | hu
      · exact ⟨c, axes, ha⟩
      · exact ih hg u hu

theorem named_of_levels_ok {h : Hierarchy} {ls : List (Record Number)} (hl : levels h = .ok ls) :
    ∀ t ∈ h, ∃ c : Category, t.category = c.name := by
  intro t ht
  obtain ⟨c, axes, ha⟩ := axesOf_of_levels_ok hl t ht
  exact ⟨c, (axesOf_ok ha).1⟩

private theorem category_eq_of_mem_run {h : Hierarchy} {run : List Term} (hrun : run ∈ runs h)
    {t u : Term} (ht : t ∈ run) (hu : u ∈ run) : t.category = u.category := by
  have hchain : run.IsChain fun t u => t.category = u.category := by
    simpa only [beq_iff_eq] using List.isChain_of_mem_splitBy hrun
  have : IsTrans Term fun t u => t.category = u.category := ⟨fun _ _ _ => Eq.trans⟩
  have : Std.Symm fun t u : Term => t.category = u.category := ⟨fun _ _ => Eq.symm⟩
  have hpair := List.isChain_iff_pairwise.mp hchain
  refine List.Pairwise.forall_of_forall ?_ hpair ht hu
  exact fun _ _ => rfl

theorem mem_of_mem_run {h : Hierarchy} {run : List Term} (hrun : run ∈ runs h) {t : Term}
    (ht : t ∈ run) : t ∈ h := by
  have hflat : (runs h).flatten = h.reverse := List.flatten_splitBy _ _
  rw [← List.mem_reverse, ← hflat]
  exact List.mem_flatten.mpr ⟨run, hrun, ht⟩

theorem categoryOf_singleton {t : Term} {c : Category} (h : t.category = c.name) :
    categoryOf [t] = c := by
  simp [categoryOf, Category.ofName?_eq_some_iff.mpr h]

theorem categoryOf_append {run : List Term} (hne : run ≠ []) (more : List Term) :
    categoryOf (run ++ more) = categoryOf run := by
  obtain ⟨u, rest, rfl⟩ := List.exists_cons_of_ne_nil hne
  rfl

/-- The terms of a run have the category of the run once they have one at all. -/
theorem category_eq_categoryOf {h : Hierarchy} (hc : ∀ t ∈ h, ∃ c : Category, t.category = c.name)
    {run : List Term} (hrun : run ∈ runs h) {t : Term} (ht : t ∈ run) :
    t.category = (categoryOf run).name := by
  obtain ⟨u, rest, rfl⟩ := List.exists_cons_of_ne_nil (List.ne_nil_of_mem ht)
  obtain ⟨c, hu⟩ := hc u (mem_of_mem_run hrun (by simp))
  have htu : t.category = u.category := category_eq_of_mem_run hrun ht (by simp)
  have hcu : categoryOf (u :: rest) = c :=
    (categoryOf_append (List.cons_ne_nil u []) rest).trans (categoryOf_singleton hu)
  rw [htu, hcu, hu]

/-- A further term goes into the record of the last run or, of another category, opens one
below it. -/
theorem extend_runRecords {t : Term} {general : Hierarchy} {c : Category} {axes : Axes}
    (named : ∀ u ∈ general, ∃ c : Category, u.category = c.name) (hc : t.category = c.name)
    (haxes : AxesOf c axes t) :
    extend c axes t (runRecords general).reverse = (runRecords (t :: general)).reverse := by
  rcases List.eq_nil_or_concat' (runs general) with hr | ⟨init, run, hr⟩
  · have hnil : general = [] := by
      simpa [runs] using hr
    subst hnil
    change [absorb c axes t {}] = [ofRun (categoryOf [t]) [t]]
    rw [absorb_empty haxes, categoryOf_singleton hc]
  · have hmem : run ∈ runs general := by simp [hr]
    have hne : run ≠ [] := List.ne_nil_of_mem_splitBy hmem
    obtain ⟨u, hu⟩ : ∃ u, run.getLast? = some u :=
      ⟨run.getLast hne, List.getLast?_eq_some_getLast hne⟩
    have hucat : u.category = (categoryOf run).name :=
      category_eq_categoryOf named hmem (List.mem_of_getLast? hu)
    by_cases hsame : categoryOf run = c
    · have hut : u.category = t.category := by rw [hucat, hsame, hc]
      have hcat : categoryOf (run ++ [t]) = c := by rw [categoryOf_append hne, hsame]
      have hruns := runs_cons_same hr hu hut
      simp [runRecords, hr, hruns, extend, ofRun_category, hsame, hcat, absorb_ofRun haxes]
    · have hut : u.category ≠ t.category := by
        rw [hucat, hc]
        exact fun hname => hsame (Category.name_injective hname)
      have hruns := runs_cons_switch hr hu hut
      simp [runRecords, hr, hruns, extend, ofRun_category, hsame, categoryOf_singleton hc,
        absorb_empty haxes]

/-- The walk keeps one level for each run, the deepest level being that of the last run. -/
theorem levels_eq_runRecords {h : Hierarchy} {ls : List (Record Number)}
    (hl : levels h = .ok ls) : ls = (runRecords h).reverse := by
  induction h generalizing ls with
  | nil =>
      rw [levels_nil] at hl
      exact (Except.ok.inj hl).symm
  | cons t general ih =>
      obtain ⟨above, c, axes, hg, ha, rfl⟩ := levels_cons_ok hl
      obtain ⟨hc, haxes, -⟩ := axesOf_ok ha
      rw [ih hg]
      exact extend_runRecords (named_of_levels_ok hg) hc haxes

theorem ofHierarchy_eq_chain {h : Hierarchy} {r : Record Number} (hr : ofHierarchy h = .ok r) :
    r = chain (runRecords h) := by
  obtain ⟨ls, hl, rfl⟩ := ofHierarchy_eq_ok_iff.mp hr
  have hchild : ∀ r ∈ ls, r.child = none := by
    rw [levels_eq_runRecords hl]
    intro r hmem
    obtain ⟨run, -, rfl⟩ := List.mem_map.mp (List.mem_reverse.mp hmem)
    exact ofRun_child _ _
  rw [link_eq_chain hchild, levels_eq_runRecords hl, List.reverse_reverse]

/-- The record on top is of the category of the most general term. -/
theorem category_of_getLast {h : Hierarchy} {r : Record Number} {c : Category} {t : Term}
    (hr : ofHierarchy h = .ok r) (ht : h.getLast? = some t) (hc : t.category = c.name) :
    r.category = some c := by
  obtain ⟨general, hreverse⟩ := List.head?_eq_some_iff.mp (List.head?_reverse ▸ ht)
  have hflat : (runs h).flatten = t :: general := (List.flatten_splitBy _ _).trans hreverse
  rw [ofHierarchy_eq_chain hr, runRecords]
  cases hruns : runs h with
  | nil => simp [hruns] at hflat
  | cons run rest =>
      have hne : run ≠ [] :=
        List.ne_nil_of_mem_splitBy (l := h.reverse) (hruns ▸ List.mem_cons_self)
      obtain ⟨u, below, rfl⟩ := List.exists_cons_of_ne_nil hne
      obtain rfl : u = t := by
        rw [hruns] at hflat
        exact (List.cons.inj hflat).1
      have hcategory : categoryOf (u :: below) = c :=
        (categoryOf_append (List.cons_ne_nil u []) below).trans (categoryOf_singleton hc)
      rw [List.map_cons, chain_cons_category, ofRun_category, hcategory]

theorem isChain_category_runRecords {h : Hierarchy}
    (named : ∀ t ∈ h, ∃ c : Category, t.category = c.name) :
    (runRecords h).IsChain fun a b => a.category ≠ b.category := by
  rw [runRecords, List.isChain_map]
  refine List.IsChain.imp_of_mem_imp ?_ (List.isChain_getLast_head_splitBy _ _)
  rintro a b ha hb ⟨hla, hhb, hne⟩
  have hlast : (a.getLast hla).category = (categoryOf a).name :=
    category_eq_categoryOf named ha (List.getLast_mem hla)
  have hhead : (b.head hhb).category = (categoryOf b).name :=
    category_eq_categoryOf named hb (List.head_mem hhb)
  rw [beq_eq_false_iff_ne, hlast, hhead] at hne
  simp only [ofRun_category, ne_eq, Option.some.injEq]
  intro heq
  exact hne (by rw [heq])

/-- The record of a hierarchy is a chain of the records of its runs, the most general run on top.
Neighbours differ in their category, and every axis that was described did compile. -/
theorem ofHierarchy_describes_runs {h : Hierarchy} {r : Record Number}
    (hr : ofHierarchy h = .ok r) :
    r = chain (runRecords h) ∧
      ((runRecords h).IsChain fun a b => a.category ≠ b.category) ∧
      (∀ run ∈ runs h, ∀ t ∈ run, t.category = (categoryOf run).name) ∧
      ∀ t ∈ h, t.category = Category.object.name → AxesCompile t := by
  obtain ⟨ls, hl, -⟩ := ofHierarchy_eq_ok_iff.mp hr
  have named := named_of_levels_ok hl
  refine ⟨ofHierarchy_eq_chain hr, isChain_category_runRecords named, ?_, ?_⟩
  · intro run hrun t ht
    exact category_eq_categoryOf named hrun ht
  · intro t ht hobject
    obtain ⟨c, axes, ha⟩ := axesOf_of_levels_ok hl t ht
    obtain ⟨hc, -, hcompile⟩ := axesOf_ok ha
    apply hcompile
    exact Category.name_injective (hc.symm.trans hobject)

/-- Objects with described keys, listed under a text. -/
def mixedHierarchy : Hierarchy :=
  [{ id := "labels", key := "labels", category := "object",
     keyAxis := some [{ id := "label", key := "label", category := "text" }] },
   { id := "pages", key := "pages", category := "list" },
   { id := "word", key := "word", category := "text" },
   { id := "text", key := "text", category := "text" }]

theorem ofHierarchy_describes_runs_of_mixed :
    ∃ r, ofHierarchy mixedHierarchy = .ok r ∧ r = chain (runRecords mixedHierarchy) ∧
      (runs mixedHierarchy).map categoryOf = [.text, .list, .object] :=
  ⟨_, rfl, (ofHierarchy_describes_runs rfl).1, by decide⟩

end Record

end TermRules
