import TermRules.Program
import TermRules.Proofs.Batch

/-!
Batch forms. A list of references, and a list of descriptors of any depth, are compiled member by
member and keep their structure. So do the rules of a list of references and of a list of single
descriptors; what the rules of lists within lists are is left open. A list without references is not
a batch of references but a hierarchy, one that has no terms.
-/

namespace TermRules

namespace Batch

mutual

/-- A source or a descriptor with its lists taken apart. -/
def ofValue : Value → Batch Value
  | .list items => .many (ofValues items)
  | .scalar s => .one (.scalar s)
  | .mapping entries => .one (.mapping entries)

def ofValues : List Value → List (Batch Value)
  | [] => []
  | v :: vs => ofValue v :: ofValues vs

end

mutual

private theorem ofValue_of_mem {u : Value} :
    ∀ v : Value, u ∈ (ofValue v).members → ofValue u = .one u
  | .list items, hu => ofValue_of_mem_all items hu
  | .scalar s, hu => by
      obtain rfl := List.mem_singleton.mp hu
      rfl
  | .mapping entries, hu => by
      obtain rfl := List.mem_singleton.mp hu
      rfl

private theorem ofValue_of_mem_all {u : Value} :
    ∀ vs : List Value, u ∈ membersOfAll (ofValues vs) → ofValue u = .one u
  | [], hu => absurd hu List.not_mem_nil
  | v :: vs, hu => (List.mem_append.mp hu).elim (ofValue_of_mem v) (ofValue_of_mem_all vs)

end

private theorem ofValue_texts (refs : List String) :
    ofValue (.texts refs) = .many (refs.map fun ref => .one (.text ref)) := by
  have hall : ofValues (refs.map .text) = refs.map fun ref => .one (.text ref) := by
    induction refs with
    | nil => rfl
    | cons ref refs ih => exact congrArg (Batch.one (Value.text ref) :: ·) ih
  rw [Value.texts, ofValue, hall]

private theorem members_ofValue_texts (refs : List String) :
    (ofValue (.texts refs)).members = refs.map .text := by
  rw [ofValue_texts, members, membersOfAll_eq, List.flatMap_map]
  exact List.map_eq_flatMap.symm

/-- Neither a list nor, if it is one, a list with a list in it. -/
def IsFlat {α : Type} : Batch α → Prop
  | .one _ => True
  | .many bs => ∀ b ∈ bs, ∃ a, b = .one a

variable {α β : Type} {R : α → β → Prop} {b : Batch α} {c : Batch β}

private theorem IsFlat.of_paired (hb : b.IsFlat) (h : Paired R b c) : c.IsFlat := by
  cases h with
  | one _ => trivial
  | many h =>
      intro c hc
      obtain ⟨b, hmem, hbc⟩ := exists_of_mem_right h hc
      obtain ⟨a, rfl⟩ := hb b hmem
      obtain ⟨y, -, rfl⟩ := paired_one_iff.mp hbc
      exact ⟨y, rfl⟩

private theorem memberRule_eq_ok_iff {adjust : Bool} {r : Record Number} {c : Batch Rule} :
    memberRule adjust (.one r) = .ok c ↔ Paired (fun r a => r.rule adjust = .ok a) (.one r) c := by
  rw [memberRule, paired_one_iff, bind_eq_ok_iff]
  simp only [liftM_eq_ok_iff, pure_eq_ok_iff]

private theorem rules_eq_ok_iff {adjust : Bool} {b : Batch (Record Number)} {c : Batch Rule}
    (hb : b.IsFlat) : b.rules adjust = .ok c ↔ Paired (fun r a => r.rule adjust = .ok a) b c := by
  cases b with
  | one r => exact memberRule_eq_ok_iff
  | many bs =>
      rw [rules, paired_many_iff, bind_eq_ok_iff]
      simp only [mapM_eq_ok_iff, pure_eq_ok_iff]
      refine exists_congr fun cs => and_congr_left fun _ => forall₂_congr_of_mem fun b hmem c => ?_
      obtain ⟨r, rfl⟩ := hb b hmem
      exact memberRule_eq_ok_iff

private theorem rules_eq_one_iff {adjust : Bool} {b : Batch (Record Number)} {a : Rule} :
    b.rules adjust = .ok (.one a) ↔ ∃ r, b = .one r ∧ r.rule adjust = .ok a := by
  cases b with
  | one r =>
      rw [rules, bind_eq_ok_iff]
      simp [liftM_eq_ok_iff, pure_eq_ok_iff]
  | many bs =>
      rw [rules, bind_eq_ok_iff]
      simp [pure_eq_ok_iff]

end Batch

/-- `b` has the structure of `v`, and in the place of each member what `f` gives for it. -/
def Value.Becomes {α : Type} (f : Value → Except Failure (Batch α)) (v : Value) (b : Batch α) :
    Prop :=
  Batch.Paired (fun u a => f u = .ok (.one a)) (.ofValue v) b

/-- What `f` gives for `v` is what it gives for the members, each in its place; if it fails for any
of them, then the failure is that of the first one. -/
structure Value.IsElementwise {α : Type} (f : Value → Except Failure (Batch α)) (v : Value) :
    Prop where
  ok : ∀ b, f v = .ok b ↔ v.Becomes f b
  error : ∀ e, f v = .error e ↔ ∃ before u behind,
    (Batch.ofValue v).members = before ++ u :: behind ∧
      (∀ w ∈ before, ∃ a, f w = .ok (.one a)) ∧ f u = .error e

namespace Registry

variable {α : Type} {r : Registry} {adjust : Bool} {v o : Value}
  {f : Value → Except Failure (Batch α)}
  {g : Value → Except Failure α}

private theorem map_one_eq_ok_iff {x : Except Failure α} {a : α} :
    Batch.one <$> x = .ok (.one a) ↔ x = .ok a := by
  cases x <;> simp [Functor.map, Except.map]

private theorem isElementwise_of_traverse (hv : f v = (Batch.ofValue v).traverse g)
    (hmembers : ∀ u ∈ (Batch.ofValue v).members, f u = Batch.one <$> g u) : v.IsElementwise f where
  ok b := by
    rw [hv, Batch.traverse_eq_ok_iff, Value.Becomes]
    exact Batch.paired_congr fun u hu a => by rw [hmembers u hu, map_one_eq_ok_iff]
  error e := by
    rw [hv, Batch.traverse_eq_error_iff]
    refine exists_congr fun before => exists_congr fun u => exists_congr fun behind =>
      and_congr_right fun hsplit => ?_
    have hu : u ∈ (Batch.ofValue v).members := by simp [hsplit]
    have hbefore : ∀ w ∈ before, w ∈ (Batch.ofValue v).members := by
      intro w hw
      rw [hsplit]
      exact List.mem_append_left _ hw
    rw [hmembers u hu, map_eq_error_iff]
    refine and_congr_left fun _ => forall₂_congr fun w hw => exists_congr fun a => ?_
    rw [hmembers w (hbefore w hw), map_one_eq_ok_iff]

/-- Compiles a single descriptor. -/
def compileOne [Readable Options] (r : Registry) (d : Value) : Except Failure (Record Number) :=
  readDescriptor d >>= r.compileOptions

private theorem bind_bind_one {γ : Type} (x : Except Failure γ) (k : γ → Except Failure α) :
    (do return .one (← k (← x))) = (Batch.one <$> (x >>= k) : Except Failure (Batch α)) := by
  cases x with
  | error f => rfl
  | ok c =>
      cases h : k c <;> simp [bind, Except.bind, Functor.map, Except.map, pure, Except.pure, h]

mutual

private theorem compileDescriptor_eq [Readable Options] (r : Registry) :
    ∀ v, r.compileDescriptor v = (Batch.ofValue v).traverse r.compileOne
  | .list items => by
      rw [compileDescriptor, Batch.ofValue, Batch.traverse, compileDescriptors_eq r items]
  | .scalar s => bind_bind_one _ _
  | .mapping entries => bind_bind_one _ _

private theorem compileDescriptors_eq [Readable Options] (r : Registry) :
    ∀ vs, r.compileDescriptors vs = Batch.traverseAll r.compileOne (Batch.ofValues vs)
  | [] => rfl
  | v :: vs => by
      rw [compileDescriptors, compileDescriptor_eq r v, compileDescriptors_eq r vs, Batch.ofValues,
        Batch.traverseAll]

end

private theorem textItems?_map (refs : List String) :
    Value.textItems? (refs.map .text) = some refs := by
  induction refs with
  | nil => rfl
  | cons ref refs ih => simp [Value.textItems?, ih]

private theorem compileType_texts [Readable Options] [Readable Term] {refs : List String}
    (hne : refs ≠ []) :
    r.compileType (.texts refs) o = (Batch.ofValue (.texts refs)).traverse (r.compileSource o) := by
  have hbatch : batchOf? (.texts refs) = some refs := by
    rw [batchOf?, Value.texts, Value.texts?, textItems?_map]
    simpa using hne
  have hall : (refs.map fun ref => Batch.one (Value.text ref)).mapM
    (Batch.traverse (r.compileSource o)) =
      List.map Batch.one <$> refs.mapM fun ref => r.compileSource o (.text ref) := by
    clear hne hbatch
    induction refs with
    | nil => rfl
    | cons ref refs ih =>
        rw [List.map_cons, List.mapM_cons, ih, Batch.traverse, List.mapM_cons]
        cases r.compileSource o (.text ref) with
        | error f => rfl
        | ok record => cases refs.mapM fun ref => r.compileSource o (.text ref) <;> rfl
  rw [compileType, hbatch, Batch.ofValue_texts, Batch.traverse, Batch.traverseAll_eq, hall]
  dsimp only
  cases refs.mapM fun ref => r.compileSource o (.text ref) <;> rfl

private theorem compileType_nil [Readable Options] [Readable Term] (r : Registry) (o : Value) :
    r.compileType (.list []) o = .ok (.one {}) := by
  have hinject : Hierarchy.injectValue o [] = .ok [] := by
    simp [Hierarchy.injectValue]
  change Batch.one <$> (Hierarchy.injectValue o [] >>= compile) = _
  rw [hinject]
  rfl

/-- The rule of a type, or the rules of the types of a batch. -/
def ruleForType [Readable Options] [Readable Term] (r : Registry) (adjust : Bool)
    (source o : Value) : Except Failure (Batch Rule) :=
  r.compileType source o >>= Batch.rules adjust

def ruleForDescriptor [Readable Options] (r : Registry) (adjust : Bool) (d : Value) :
    Except Failure (Batch Rule) :=
  r.compileDescriptor d >>= Batch.rules adjust

private theorem isElementwise_compileType [Readable Options] [Readable Term] {refs : List String}
    (hne : refs ≠ []) : (Value.texts refs).IsElementwise (r.compileType · o) := by
  refine isElementwise_of_traverse (compileType_texts hne) fun u hu => ?_
  rw [Batch.members_ofValue_texts] at hu
  obtain ⟨ref, -, rfl⟩ := List.mem_map.mp hu
  rfl

private theorem isElementwise_compileDescriptor [Readable Options] (r : Registry) (v : Value) :
    v.IsElementwise r.compileDescriptor :=
  isElementwise_of_traverse (compileDescriptor_eq r v) fun u hu => by
    rw [compileDescriptor_eq, Batch.ofValue_of_mem v hu, Batch.traverse]

/-- Where records come member by member, so do their rules. -/
theorem rules_eq_ok_iff {f : Value → Except Failure (Batch (Record Number))}
    (hf : v.IsElementwise f) (hflat : (Batch.ofValue v).IsFlat) {c : Batch Rule} :
    f v >>= Batch.rules adjust = .ok c ↔ v.Becomes (fun u => f u >>= Batch.rules adjust) c := by
  rw [bind_eq_ok_iff]
  calc (∃ b, f v = .ok b ∧ b.rules adjust = .ok c)
      ↔ ∃ b, v.Becomes f b ∧ Batch.Paired (fun r a => r.rule adjust = .ok a) b c := by
        refine exists_congr fun b => ?_
        rw [hf.ok]
        exact and_congr_right fun hb => Batch.rules_eq_ok_iff (hflat.of_paired hb)
    _ ↔ v.Becomes (fun u => f u >>= Batch.rules adjust) c := by
        refine Batch.paired_comp_iff.trans (Batch.paired_congr fun u _ a => ?_)
        rw [bind_eq_ok_iff]
        simp only [Batch.rules_eq_one_iff]
        constructor
        · rintro ⟨r, hr, ha⟩
          exact ⟨.one r, hr, r, rfl, ha⟩
        · rintro ⟨_, hr, r, rfl, ha⟩
          exact ⟨r, hr, ha⟩

/-- Batches of references and of descriptors go member by member, and so do their rules. Without any
reference a list is the hierarchy without terms, whatever the options are. -/
theorem batches_elementwise [Readable Options] [Readable Term] (r : Registry) (adjust : Bool) :
    (∀ (refs : List String) (o : Value), refs ≠ [] →
      (Value.texts refs).IsElementwise (r.compileType · o) ∧
        ∀ c, r.ruleForType adjust (.texts refs) o = .ok c ↔
          (Value.texts refs).Becomes (r.ruleForType adjust · o) c) ∧
    (∀ o : Value, r.compileType (.list []) o = .ok (.one {}) ∧
      r.ruleForType adjust (.list []) o = .ok (.one { kind := .any })) ∧
    ∀ v : Value, v.IsElementwise r.compileDescriptor ∧ ((Batch.ofValue v).IsFlat →
      ∀ c, r.ruleForDescriptor adjust v = .ok c ↔ v.Becomes (r.ruleForDescriptor adjust) c) := by
  refine ⟨fun refs o hne => ?_, fun o => ?_, fun v => ?_⟩
  · have helementwise := isElementwise_compileType (r := r) (o := o) hne
    refine ⟨helementwise, fun c => ?_⟩
    refine rules_eq_ok_iff helementwise ?_
    rw [Batch.ofValue_texts]
    intro b hb
    obtain ⟨ref, -, rfl⟩ := List.mem_map.mp hb
    exact ⟨.text ref, rfl⟩
  · refine ⟨compileType_nil r o, ?_⟩
    rw [ruleForType, compileType_nil]
    cases adjust <;> rfl
  · have helementwise := isElementwise_compileDescriptor r v
    exact ⟨helementwise, fun hflat c => rules_eq_ok_iff helementwise hflat⟩

/-- Truth values, as a descriptor that has not been read. -/
def truths : Value := .mapping [(.text "type", .text Vocabulary.boolean)]

section Program

open Program

theorem batches_elementwise_of_truths :
    ([Vocabulary.boolean] ≠ [] ∧
      (Value.texts [Vocabulary.boolean]).IsElementwise ((standard 10).compileType · .null)) ∧
    (Batch.ofValue (.list [truths, truths])).IsFlat ∧
      ∃ c, (Value.list [truths, truths]).Becomes ((standard 10).ruleForDescriptor true) c := by
  obtain ⟨hreferences, -, hdescriptors⟩ := batches_elementwise (standard 10) true
  have hne : [Vocabulary.boolean] ≠ [] := List.cons_ne_nil _ _
  have hflat : (Batch.ofValue (.list [truths, truths])).IsFlat := by
    intro b hb
    rcases List.mem_cons.mp hb with rfl | hb
    · exact ⟨truths, rfl⟩
    · obtain rfl := List.mem_singleton.mp hb
      exact ⟨truths, rfl⟩
  exact ⟨⟨hne, (hreferences _ .null hne).1⟩, hflat, _, ((hdescriptors _).2 hflat _).mp rfl⟩

/-- A list without references gives one record and not a list of none; and a list within a list of
descriptors has records but no rules. -/
theorem batches_not_elementwise :
    (standard 10).compileType (.texts []) .null ≠ .ok (.many []) ∧
    (∃ record, (standard 10).compileDescriptor (.list [.list [truths]]) =
      .ok (.many [.many [.one record]])) ∧
    ∀ c, (standard 10).ruleForDescriptor true (.list [.list [truths]]) ≠ .ok c := by
  refine ⟨?_, ⟨_, rfl⟩, fun c h => ?_⟩
  · intro h
    have hone := Except.ok.inj ((compileType_nil (standard 10) .null).symm.trans h)
    contradiction
  · have hfails : (standard 10).ruleForDescriptor true (.list [.list [truths]]) =
        .error (.misuse .noFields) := rfl
    rw [hfails] at h
    contradiction

end Program

end Registry

end TermRules
