import Mathlib.Data.List.Nodup
import TermRules.Program
import TermRules.Proofs.Record.Tree
import TermRules.Proofs.Rule.Conjunction

/-!
The hooks of a level and how often they are called. A level lists each name once that its terms
give, but it tells names apart by their whole spelling, while hooks are looked up by the part
behind the last colon. So no hook is called twice exactly if the terms of the level have one
spelling for each.
-/

namespace TermRules

namespace Hooks

variable {α : Type} {table : List (String × α)} {names given : List String}

/-- Names of one hook are spelled in one way. -/
def SpelledAlike (names : List String) : Prop :=
  ∀ m ∈ names, ∀ n ∈ names, localName m = localName n → m = n

/-- Every name has a hook. -/
def Resolves (table : List (String × α)) (names : List String) : Prop :=
  ∀ name ∈ names, ∃ hook, lookup table name = .ok hook

/-- The entries that a run through the names calls one after the other. A name without a hook ends
the run. -/
def called (table : List (String × α)) : List String → List (String × α)
  | [] => []
  | name :: names => match table.find? fun e => e.1 == localName name with
    | some e => e :: called table names
    | none => []

/-- A run through the names calls no entry twice. -/
def CallsOnce (table : List (String × α)) (names : List String) : Prop :=
  ((called table names).map Prod.fst).Nodup

section Calls

private theorem fst_of_find? {name : String} {e : String × α}
    (h : (table.find? fun e => e.1 == localName name) = some e) : e.1 = localName name := by
  simpa using List.find?_some h

private theorem exists_entry_of_lookup {name : String} {hook : α}
    (h : lookup table name = .ok hook) :
    ∃ e, (table.find? fun e => e.1 == localName name) = some e := by
  rw [lookup] at h
  split at h
  · exact ⟨_, ‹_›⟩
  · contradiction

private theorem called_sublist (table : List (String × α)) (names : List String) :
    ((called table names).map Prod.fst).Sublist (names.map localName) := by
  induction names with
  | nil => exact List.nil_sublist _
  | cons name names ih =>
      rw [called]
      split
      · rename_i e he
        rw [List.map_cons, List.map_cons, fst_of_find? he]
        exact ih.cons_cons _
      · exact List.nil_sublist _

private theorem map_fst_called (h : Resolves table names) :
    (called table names).map Prod.fst = names.map localName := by
  induction names with
  | nil => rfl
  | cons name names ih =>
      obtain ⟨⟨hook, hhook⟩, h⟩ := List.forall_mem_cons.mp h
      obtain ⟨e, he⟩ := exists_entry_of_lookup hhook
      rw [called, he, List.map_cons, List.map_cons, fst_of_find? he, ih h]

private theorem callsOnce_of_nodup (h : (names.map localName).Nodup) : CallsOnce table names :=
  h.sublist (called_sublist table names)

private theorem callsOnce_iff (h : Resolves table names) :
    CallsOnce table names ↔ (names.map localName).Nodup := by
  rw [CallsOnce, map_fst_called h]

/-- Looks up the names one after the other, up to one without a hook. -/
def lookupAll (table : List (String × α)) : List String → Except Failure Unit
  | [] => .ok ()
  | name :: names => do
      let _ ← lookup table name
      lookupAll table names

/-- Calls the entries of the names in turn, and complains behind that of a name without a hook. -/
def callAll (act : α → Value → Except Failure Value) (table : List (String × α))
    (names : List String) (v : Value) : Except Failure Value := do
  let w ← (called table names).foldlM (fun w e => act e.2 w) v
  lookupAll table names
  return w

private theorem callAll_cons (act : α → Value → Except Failure Value) (name : String) (v : Value) :
    callAll act table (name :: names) v =
      (do callAll act table names (← act (← lookup table name) v)) := by
  rw [callAll, called, lookupAll, lookup]
  cases table.find? fun e => e.1 == localName name with
  | none => rfl
  | some e =>
      let call (w : Value) (e : String × α) := act e.2 w
      calc ((e :: called table names).foldlM call v >>= fun w => do
            lookupAll table names
            return w)
          = act e.2 v >>= fun w => (called table names).foldlM call w >>= fun w => do
              lookupAll table names
              return w := by rw [List.foldlM_cons, bind_assoc]
        _ = act e.2 v >>= callAll act table names := rfl

end Calls

section Listing

/-- What a level's list of hooks is to the names that its terms give. -/
structure Lists (names given : List String) : Prop where
  mem_iff : ∀ name, name ∈ names ↔ name ∈ given
  nodup : names.Nodup
  nodup_localName_iff : (names.map localName).Nodup ↔ SpelledAlike given
  callsOnce : SpelledAlike given → ∀ {α : Type} (table : List (String × α)), CallsOnce table names
  callsOnce_iff : ∀ {α : Type} (table : List (String × α)), Resolves table names →
    (CallsOnce table names ↔ SpelledAlike given)

private theorem lists_eraseDups (given : List String) : Lists given.eraseDups given := by
  have hnodup := nodup_eraseDups given
  have hiff : (given.eraseDups.map localName).Nodup ↔ SpelledAlike given := by
    rw [List.nodup_map_iff_inj_on hnodup]
    simp only [List.mem_eraseDups]
    rfl
  exact {
    mem_iff := fun name => List.mem_eraseDups
    nodup := hnodup
    nodup_localName_iff := hiff
    callsOnce := fun h _ _ => callsOnce_of_nodup (hiff.mpr h)
    callsOnce_iff := fun _ h => (callsOnce_iff h).trans hiff }

end Listing

end Hooks

namespace Rule

variable {hooks : Hooks} {path : String}

private theorem runCasts_eq_callAll (names : List String) (v : Value) :
    runCasts hooks path names v =
    Hooks.callAll (fun c v => c.apply v path) hooks.casts names v := by
  induction names generalizing v with
  | nil => rfl
  | cons name names ih => simp only [runCasts, Hooks.callAll_cons, ih]

private theorem runCustoms_eq_callAll [Library] (names : List String) (v : Value) :
    runCustoms hooks path names v =
    Hooks.callAll (fun c v => c.apply v path) hooks.customs names v := by
  induction names generalizing v with
  | nil => rfl
  | cons name names ih => simp only [runCustoms, Hooks.callAll_cons, ih]

end Rule

namespace Record

variable {h : Hierarchy} {r s : Record Number} {run : List Term}

/-- In the record of `h`, `s` is the level that the terms of `run` make up. Without any term there
is one level, which nothing made. -/
inductive HasLevel (h : Hierarchy) : Record Number → List Term → Prop
  | blank (hempty : h = []) : HasLevel h {} []
  | ofRun {g : Hierarchy} {run : List Term} {rest : List (Record Number)} (hg : g.IsWithin h)
      (hrun : run ∈ runs g) (hsuffix : ofRun (categoryOf run) run :: rest <:+ runRecords g) :
      HasLevel h (chain (ofRun (categoryOf run) run :: rest)) run

private theorem eq_nil_of_isWithin_nil {g : Hierarchy} (hg : g.IsWithin []) : g = [] := by
  rcases Relation.ReflTransGen.cases_tail hg with heq | ⟨g', -, run, hrun, -⟩
  · exact heq.symm
  · contradiction

private theorem isWithin_iff_hasLevel (hr : ofHierarchy h = .ok r) :
    s.IsWithin r ↔ ∃ run, HasLevel h s run := by
  by_cases hne : h = []
  · subst hne
    cases hr
    constructor
    · intro hs
      exact ⟨[], eq_of_isWithin_empty hs ▸ .blank rfl⟩
    · rintro ⟨run, hlevel⟩
      cases hlevel with
      | blank => exact .refl
      | ofRun hg hrun hsuffix =>
          obtain rfl := eq_nil_of_isWithin_nil hg
          contradiction
  · rw [isWithin_iff hr hne]
    constructor
    · rintro ⟨g, hg, hlevel⟩
      obtain ⟨run, rest, hrun, hsuffix, rfl⟩ := hlevel.exists_run
      exact ⟨run, .ofRun hg hrun hsuffix⟩
    · rintro ⟨run, hlevel⟩
      cases hlevel with
      | blank hempty => exact absurd hempty hne
      | ofRun hg hrun hsuffix => exact ⟨_, hg, _, List.cons_ne_nil _ _, hsuffix, rfl⟩

namespace HasLevel

private theorem casts (hs : HasLevel h s run) :
    s.casts = (run.flatMap fun t => t.casts).eraseDups := by
  cases hs with
  | blank => rfl
  | ofRun => rw [chain_cons_casts, ofRun_casts]

private theorem customs (hs : HasLevel h s run) :
    s.customs = (run.flatMap fun t => t.customs).eraseDups := by
  cases hs with
  | blank => rfl
  | ofRun => rw [chain_cons_customs, ofRun_customs]

end HasLevel

/-- The record of a hierarchy lists for each level the hooks that the terms of the level name.
A rule of the level calls these, and it calls each once exactly if the terms have one spelling
for it. -/
theorem levels_call_hooks_once_iff [Library] (hr : ofHierarchy h = .ok r) :
    (∀ s, s.IsWithin r ↔ ∃ run, HasLevel h s run) ∧
      ∀ s run, HasLevel h s run →
        Hooks.Lists s.casts (run.flatMap fun t => t.casts) ∧
        Hooks.Lists s.customs (run.flatMap fun t => t.customs) ∧
        ∀ adjust rule, s.rule adjust = .ok rule → ∀ (hooks : Hooks) (path : String) (v : Value),
          Rule.runCasts hooks path rule.casts v =
            Hooks.callAll (fun c v => c.apply v path) hooks.casts s.casts v ∧
          Rule.runCustoms hooks path rule.customs v =
            Hooks.callAll (fun c v => c.apply v path) hooks.customs s.customs v := by
  refine ⟨fun s => isWithin_iff_hasLevel hr, fun s run hs => ⟨?_, ?_, ?_⟩⟩
  · rw [hs.casts]
    exact Hooks.lists_eraseDups _
  · rw [hs.customs]
    exact Hooks.lists_eraseDups _
  · intro adjust rule hrule hooks path v
    have hrenders := renders_of_rule hrule
    rw [hrenders.casts, hrenders.customs]
    exact ⟨Rule.runCasts_eq_callAll _ _, Rule.runCustoms_eq_callAll _ _⟩

/-- Codes under the built-in text type, which names the cast to text by its key; the codes name
it too. -/
def codesCastBy (name : String) : Hierarchy :=
  [{ id := "terms/code", key := "code", category := "text", casts := [name] },
    { id := "terms/" ++ Vocabulary.text, key := Vocabulary.text, category := "text",
      casts := [Vocabulary.hook "castString"] }]

section Program

open Program

theorem levels_call_hooks_once_codes :
    ∃ r, ofHierarchy (codesCastBy (Vocabulary.hook "castString")) = .ok r ∧
      r.casts = [Vocabulary.hook "castString"] ∧ Hooks.CallsOnce Hooks.standard.casts r.casts := by
  let codes := codesCastBy (Vocabulary.hook "castString")
  have hr : ofHierarchy codes = .ok (ofRun .text codes.reverse) := rfl
  have hruns : runs codes = [codes.reverse] := rfl
  have hrecords : runRecords codes = [ofRun .text codes.reverse] := rfl
  have hlevel : HasLevel codes (ofRun .text codes.reverse) codes.reverse :=
    @HasLevel.ofRun codes codes codes.reverse [] .refl (hruns ▸ List.mem_singleton_self _)
      (hrecords ▸ List.suffix_rfl)
  have hspelled : Hooks.SpelledAlike (codes.reverse.flatMap fun t => t.casts) := by
    unfold Hooks.SpelledAlike
    decide +kernel
  have hcasts := ((levels_call_hooks_once_iff hr).2 _ _ hlevel).1
  exact ⟨_, hr, by decide +kernel, hcasts.callsOnce hspelled _⟩

/-- The codes name the cast without its prefix. Both names are kept, and both call the one cast. -/
theorem hooks_repeat_castString : ∃ r, ofHierarchy (codesCastBy "castString") = .ok r ∧
    r.casts = [Vocabulary.hook "castString", "castString"] ∧
    localName (Vocabulary.hook "castString") = localName "castString" ∧
    Hooks.called Hooks.standard.casts r.casts = [("castString", .string),
      ("castString", .string)] := by
  refine ⟨_, rfl, ?_, ?_, ?_⟩
  · decide +kernel
  · decide
  · decide +kernel

end Program

end Record

end TermRules
