import Mathlib.Data.List.Induction
import TermRules.Program
import TermRules.Proofs.Json.Digits
import TermRules.Proofs.Registry.Extension
import TermRules.Proofs.Text.Utf8
import TermRules.Registry.File

/-!
Registries from files of terms. What a file gives is said without the steps of reading it: the bytes
encode a text, the text spells a document, the document lists values, and the values are terms. Then
the registry holds the last term of each key among the standard terms and those of the file, and
nothing else; in any other case the file is refused as invalid.

Two faults are not announced in this way: bytes that encode no text, and a path with a
null character.
-/

namespace TermRules

/-- A file holds the document: its bytes encode a text that is the document once its line ends
are unified. -/
def Look.Spells (look : Look) (document : String) : Prop :=
  ∃ cs : List Char, look = .file (cs.flatMap String.utf8EncodeChar) ∧
    document = String.ofList (Text.unifyLineEnds cs)

/-- A file lists the values, by themselves or under `terms`. -/
def Look.Lists (look : Look) (values : List Value) : Prop :=
  ∃ document v, look.Spells document ∧ Json.parse document = .ok v ∧
    (v = .list values ∨ v.get? "terms" = some (.list values))

/-- The values are the terms, as they are written. -/
def Term.AreRead [Readable Term] (values : List Value) (terms : List Term) : Prop :=
  List.Forall₂ (fun v t => v.read = .found t) values terms

/-- What is announced as an invalid record when terms are read from the file at a path. -/
def Failure.IsInvalidTerms (path : String) : Failure → Prop
  | .unfit .term _ _ => True
  | .termsNotJson _ p | .termsUnreadable _ p | .termsNotList p | .termNotMapping p => p = path
  | _ => False

namespace Registry

/-- The registry holds the last term of each key in the list, once, and nothing else. -/
structure HoldsLast (r : Registry) (ts : List Term) : Prop where
  distinct : (r.terms.map Term.key).Nodup
  mem_iff : ∀ t, t ∈ r.terms ↔
    ∃ before behind, ts = before ++ t :: behind ∧ ∀ u ∈ behind, u.key ≠ t.key

section Place

variable {t u : Term} {us : List Term}

private theorem keys_place : (place t us).map Term.key =
    if t.key ∈ us.map Term.key then us.map Term.key else us.map Term.key ++ [t.key] := by
  induction us with
  | nil => rfl
  | cons v vs ih =>
      rw [place]
      by_cases hv : v.key = t.key
      · simp [hv]
      · have hne : t.key ≠ v.key := fun h => hv h.symm
        simp only [if_neg hv, List.map_cons, ih, List.mem_cons, hne, false_or]
        split <;> rfl

private theorem nodup_place (h : (us.map Term.key).Nodup) : ((place t us).map Term.key).Nodup := by
  rw [keys_place]
  split
  · exact h
  · rename_i hnew
    rw [List.nodup_append]
    exact ⟨h, List.nodup_singleton _, by grind⟩

private theorem mem_place_iff (h : (us.map Term.key).Nodup) :
    u ∈ place t us ↔ u = t ∨ u ∈ us ∧ u.key ≠ t.key := by
  induction us with
  | nil => simp [place]
  | cons v vs ih =>
      rw [List.map_cons, List.nodup_cons] at h
      rw [place]
      by_cases hv : v.key = t.key
      · have hnew : ∀ w ∈ vs, w.key ≠ t.key := fun w hw heq =>
          h.1 (hv.trans heq.symm ▸ List.mem_map_of_mem hw)
        rw [if_pos hv]
        grind
      · rw [if_neg hv]
        grind

end Place

variable {r : Registry} {ts : List Term} {t : Term}

private theorem HoldsLast.concat (h : r.HoldsLast ts) (t : Term) :
    (r.add t).HoldsLast (ts ++ [t]) := by
  refine ⟨nodup_place h.distinct, fun u => ?_⟩
  rw [add, mem_place_iff h.distinct, h.mem_iff]
  constructor
  · rintro (rfl | ⟨⟨before, behind, rfl, hbehind⟩, hne⟩)
    · exact ⟨ts, [], rfl, by simp⟩
    · refine ⟨before, behind ++ [t], by simp, ?_⟩
      rw [List.forall_mem_append, List.forall_mem_singleton]
      exact ⟨hbehind, hne.symm⟩
  · rintro ⟨before, behind, hsplit, hbehind⟩
    rcases List.eq_nil_or_concat behind with rfl | ⟨behind, w, rfl⟩
    · obtain ⟨rfl, hlast⟩ := List.append_inj' hsplit rfl
      exact .inl (List.singleton_inj.mp hlast).symm
    · rw [List.concat_eq_append, List.forall_mem_append, List.forall_mem_singleton] at hbehind
      have hassoc : ts ++ [t] = (before ++ u :: behind) ++ [w] := by simpa using hsplit
      obtain ⟨rfl, hlast⟩ := List.append_inj' hassoc rfl
      obtain rfl := List.singleton_inj.mp hlast
      exact .inr ⟨⟨before, behind, rfl, hbehind.1⟩, hbehind.2.symm⟩

private theorem holdsLast_addAll (maxDepth : Int) (ts : List Term) :
    ((empty maxDepth).addAll ts).HoldsLast ts := by
  induction ts using List.reverseRecOn with
  | nil => exact ⟨List.nodup_nil, by simp [addAll, empty]⟩
  | append_singleton ts t ih =>
      have hadd : (empty maxDepth).addAll (ts ++ [t]) = ((empty maxDepth).addAll ts).add t := by
        simp [addAll]
      rw [hadd]
      exact ih.concat t

section Stages

variable {path document : String} {values : List Value} {look : Look} {base r' : Registry}
  {bytes : List UInt8}

private theorem addValue_eq_ok_iff [Readable Term] {v : Value} {result : Registry × Term} :
    r.addValue v = .ok result ↔ ∃ t, v.read = .found t ∧ result = (r.add t, t) := by
  cases v with
  | mapping entries =>
      rw [addValue, Value.read]
      cases (Readable.read entries : Gathered Term) with
      | refused names => simp [Gathered.toExcept]
      | found t => simp [Gathered.toExcept, eq_comm]
  | scalar x => simp [addValue, Value.read]
  | list items => simp [addValue, Value.read]

private theorem addEntries_cons_eq_ok_iff [Readable Term] {v : Value} {vs : List Value} :
    r.addEntries path (v :: vs) = .ok r' ↔
    ∃ t, v.read = .found t ∧ (r.add t).addEntries path vs = .ok r' := by
  cases v with
  | mapping entries =>
      rw [addEntries, bind_eq_ok_iff]
      simp only [addValue_eq_ok_iff]
      constructor
      · rintro ⟨_, ⟨t, hread, rfl⟩, hrest⟩
        exact ⟨t, hread, hrest⟩
      · rintro ⟨t, hread, hrest⟩
        exact ⟨_, ⟨t, hread, rfl⟩, hrest⟩
  | scalar x => simp [addEntries, Value.read]
  | list items => simp [addEntries, Value.read]

private theorem addEntries_eq_ok_iff [Readable Term] : r.addEntries path values = .ok r' ↔
    ∃ terms, Term.AreRead values terms ∧ r' = r.addAll terms := by
  induction values generalizing r with
  | nil => simp [addEntries, Term.AreRead, addAll, eq_comm]
  | cons v vs ih =>
      simp only [addEntries_cons_eq_ok_iff, ih, Term.AreRead, List.forall₂_cons_left_iff]
      constructor
      · rintro ⟨t, hread, terms, hterms, rfl⟩
        exact ⟨t :: terms, ⟨t, terms, hread, hterms, rfl⟩, rfl⟩
      · rintro ⟨_, ⟨t, terms, hread, hterms, rfl⟩, rfl⟩
        exact ⟨t, hread, terms, hterms, rfl⟩

private theorem lands_addEntries [Readable Term] (r : Registry) (path : String)
    (values : List Value) :
    Lands (Failure.IsInvalidTerms path) (fun _ => True) (r.addEntries path values) := by
  induction values generalizing r with
  | nil => trivial
  | cons v vs ih =>
      cases v with
      | mapping entries =>
          rw [addEntries, addValue, Value.read]
          cases (Readable.read entries : Gathered Term) with
          | refused names => trivial
          | found t => exact ih _
      | scalar x => rfl
      | list items => rfl

private theorem documentTerms_eq_ok_iff : documentTerms document path = .ok values ↔
    ∃ v, Json.parse document = .ok v ∧
    (v = .list values ∨ v.get? "terms" = some (.list values)) := by
  rw [documentTerms]
  split
  · rename_i hparse
    simp [hparse]
  · rename_i hparse
    simp [hparse]
  · rename_i items hparse
    simp [hparse, Value.get?]
  · rename_i v hnot hparse
    have hne : v ≠ .list values := fun heq => hnot values heq
    simp only [hparse, Except.ok.injEq, exists_eq_left', hne, false_or]
    split
    · rename_i items hitems
      simp [hitems]
    · rename_i hitems
      have hnone : v.get? "terms" ≠ some (.list values) := fun heq => hitems values heq
      simp [hnone]

private theorem lands_documentTerms (document path : String) : Lands
    (fun f => f.IsInvalidTerms path ∨
      ∃ count, Json.parse document = .error (.tooManyDigits count) ∧ f = .numberTooLong count)
    (fun _ => True) (documentTerms document path) := by
  rw [documentTerms]
  split
  · rename_i count hparse
    exact .inr ⟨count, hparse, rfl⟩
  · exact .inl rfl
  · trivial
  · split
    · trivial
    · exact .inl rfl

private theorem document_eq_ok_iff :
    Look.document bytes = .ok document ↔ (Look.file bytes).Spells document := by
  rw [Look.document, bind_eq_ok_iff, Look.Spells]
  refine exists_congr fun cs => ?_
  rw [Text.decodeFrom_eq_ok_iff, pure_eq_ok_iff, Look.file.injEq, eq_comm (b := document)]

private theorem ofLook_eq_ok_iff [Readable Term] : ofLook base path look = .ok r ↔
    ∃ values terms, look.Lists values ∧ Term.AreRead values terms ∧ r = base.addAll terms := by
  cases look with
  | file bytes =>
      rw [ofLook, Look.bytes]
      simp only [ofBytes, bind_eq_ok_iff, mapError_eq_ok_iff, document_eq_ok_iff,
        documentTerms_eq_ok_iff, addEntries_eq_ok_iff, Look.Lists]
      constructor
      · rintro ⟨document, hspells, values, ⟨v, hparse, hv⟩, terms, hterms, rfl⟩
        exact ⟨values, terms, ⟨document, v, hspells, hparse, hv⟩, hterms, rfl⟩
      · rintro ⟨values, terms, ⟨document, v, hspells, hparse, hv⟩, hterms, rfl⟩
        exact ⟨document, hspells, values, ⟨v, hparse, hv⟩, terms, hterms, rfl⟩
  | missing | notDirectory | directory | refused number reason =>
      simp [ofLook, Look.bytes, Look.Lists, Look.Spells]

/-- A document that is refused for a number of too many digits. -/
def TooLong (look : Look) (f : Failure) : Prop :=
  ∃ document count, look.Spells document ∧ digitLimit < count ∧
    Json.parse document = .error (.tooManyDigits count) ∧ f = .numberTooLong count

private theorem lands_ofLook [Readable Term] (base : Registry) (path : String) (look : Look)
    (hlook : ∀ bytes, look = .file bytes → Text.IsUtf8 bytes) :
    Lands (fun f => f.IsInvalidTerms path ∨ TooLong look f) (fun _ => True)
    (ofLook base path look) := by
  cases look with
  | file bytes =>
      obtain ⟨cs, hcs⟩ := hlook bytes rfl
      have hspells : (Look.file bytes).Spells (String.ofList (Text.unifyLineEnds cs)) :=
        ⟨cs, by rw [hcs], rfl⟩
      rw [ofLook, Look.bytes]
      dsimp only
      rw [ofBytes, document_eq_ok_iff.mpr hspells]
      have hterms := (lands_documentTerms (String.ofList (Text.unifyLineEnds cs)) path).mono
        (G := fun f => f.IsInvalidTerms path ∨ TooLong (.file bytes) f)
        fun f hf => hf.imp_right <| by
          rintro ⟨count, hparse, rfl⟩
          exact ⟨_, count, hspells, Json.lt_of_parse_tooManyDigits hparse, hparse, rfl⟩
      exact hterms.bind fun values _ => (lands_addEntries base path values).mono fun _ => .inl
  | missing | notDirectory | directory | refused number reason => exact .inl rfl

private theorem ofLook_undecodable [Readable Term] (base : Registry) (path : String)
    (h : ¬Text.IsUtf8 bytes) : ∃ u, ofLook base path (.file bytes) = .error (.undecodable u) := by
  cases hdecode : Text.decodeFrom 0 bytes with
  | ok cs => exact absurd (Text.isUtf8_iff.mpr ⟨cs, hdecode⟩) h
  | error u =>
      refine ⟨u, ?_⟩
      rw [ofLook, Look.bytes]
      dsimp only
      rw [ofBytes, Look.document, hdecode]
      rfl

end Stages

/-- What is promised of a file of terms: a registry that holds the last term of each key among those
included and those of the file, or else a failure announced for the path. -/
inductive Loads [Readable Term] (maxDepth : Int) (included : List Term) (path : String)
    (look : Look) : Except Failure Registry → Prop where
  | loaded {values : List Value} {terms : List Term} {r : Registry}
      (values_listed : look.Lists values) (terms_read : Term.AreRead values terms)
      (depth : r.maxDepth = maxDepth) (holds : r.HoldsLast (included ++ terms)) :
      Loads maxDepth included path look (.ok r)
  | refused {f : Failure} (invalid : f.IsInvalidTerms path)
      (none_read : ¬∃ values terms, look.Lists values ∧ Term.AreRead values terms) :
      Loads maxDepth included path look (.error f)

/-- The promise, up to the limit of reading numbers. -/
def Keeps [Readable Term] (maxDepth : Int) (included : List Term) (path : String) (look : Look)
    (outcome : Except Failure Registry) : Prop :=
  Loads maxDepth included path look outcome ∨ ∃ f, TooLong look f ∧ outcome = .error f

/-- Faults that are not announced. -/
theorem not_keeps [Readable Term] {maxDepth : Int} {included : List Term} {path : String}
    {look : Look} {f : Failure} (hf : f = .misuse .nullInPath ∨ ∃ u, f = .undecodable u) :
    ¬Keeps maxDepth included path look (.error f) := by
  rintro (h | ⟨g, ⟨_, _, -, -, -, rfl⟩, heq⟩)
  · cases h with
    | refused invalid _ => rcases hf with rfl | ⟨u, rfl⟩ <;> exact invalid
  · cases heq
    rcases hf with h | ⟨u, h⟩ <;> cases h

private theorem maxDepth_addAll (r : Registry) (ts : List Term) :
    (r.addAll ts).maxDepth = r.maxDepth := by
  induction ts generalizing r with
  | nil => rfl
  | cons t ts ih => exact ih (r.add t)

private theorem keeps_ofLook [Readable Term] (maxDepth : Int) (included : List Term) (path : String)
    {look : Look} (hlook : ∀ bytes, look = .file bytes → Text.IsUtf8 bytes) :
    Keeps maxDepth included path look (ofLook ((empty maxDepth).addAll included) path look) := by
  have hlands := lands_ofLook ((empty maxDepth).addAll included) path look hlook
  cases houtcome : ofLook ((empty maxDepth).addAll included) path look with
  | ok r =>
      obtain ⟨values, terms, hvalues, hterms, rfl⟩ := ofLook_eq_ok_iff.mp houtcome
      have hjoin : ((empty maxDepth).addAll included).addAll terms =
          (empty maxDepth).addAll (included ++ terms) :=
        (List.foldl_append ..).symm
      rw [hjoin]
      exact .inl (.loaded hvalues hterms (maxDepth_addAll _ _) (holdsLast_addAll _ _))
  | error f =>
      rw [houtcome] at hlands
      rcases hlands with hf | hf
      · refine .inl (.refused hf ?_)
        rintro ⟨values, terms, hvalues, hterms⟩
        have hok : ofLook ((empty maxDepth).addAll included) path look = .ok _ :=
          ofLook_eq_ok_iff.mpr ⟨values, terms, hvalues, hterms, rfl⟩
        cases houtcome.symm.trans hok
      · exact .inr ⟨f, hf, rfl⟩

/-- Loading keeps its promise exactly if the path has no null character and a file that stands there
encodes a text. The faults in the other two cases are not announced. -/
theorem fromFile_keeps_iff [Readable Term] (disk : Disk Id) (path : Path) (includeStandard : Bool)
    (maxDepth : Int) :
    let outcome := fromFile disk path includeStandard maxDepth
    let included := if includeStandard then standardTerms else []
    let look := disk.look path
    (Keeps maxDepth included path.text look outcome ↔
        path.hasNull = false ∧ ∀ bytes, look = .file bytes → Text.IsUtf8 bytes) ∧
      (path.hasNull = true → outcome = .error (.misuse .nullInPath)) ∧
      ∀ bytes, path.hasNull = false → look = .file bytes → ¬Text.IsUtf8 bytes →
        ∃ u, outcome = .error (.undecodable u) := by
  intro outcome included look
  cases hnull : path.hasNull with
  | true =>
      have houtcome : outcome = .error (.misuse .nullInPath) := by
        simp only [outcome, fromFile, hnull, if_true]
        rfl
      refine ⟨?_, fun _ => houtcome, by simp⟩
      rw [houtcome]
      simp [not_keeps]
  | false =>
      have houtcome : outcome = ofLook ((empty maxDepth).addAll included) path.text look := by
        simp only [outcome, fromFile, hnull]
        cases includeStandard <;> rfl
      have hfails {bytes : List UInt8} (hfile : look = .file bytes) (hbytes : ¬Text.IsUtf8 bytes) :
          ∃ u, outcome = .error (.undecodable u) := by
        rw [houtcome, hfile]
        exact ofLook_undecodable _ _ hbytes
      refine ⟨⟨fun hkeeps => ⟨rfl, fun bytes hfile => ?_⟩, fun ⟨_, hlook⟩ => ?_⟩, by simp,
        fun bytes _ => hfails⟩
      · by_contra hbytes
        obtain ⟨u, hu⟩ := hfails hfile hbytes
        rw [hu] at hkeeps
        exact not_keeps (.inr ⟨u, rfl⟩) hkeeps
      · rw [houtcome]
        exact keeps_ofLook maxDepth included path.text hlook

section Program

open Program

/-- A byte that begins no character, and a null character in the path. -/
theorem fromFile_unannounced :
    let oneByte := (Tree.directory [("t.json", .file [0xFF])]).disk ⟨"/", []⟩
    let nothing := Tree.empty.disk ⟨"/", []⟩
    ¬Keeps 10 standardTerms "t.json" (oneByte.look (.ofText "t.json"))
        (fromFile oneByte (.ofText "t.json") true 10) ∧
      ¬Keeps 10 standardTerms "a\x00b" (nothing.look (.ofText "a\x00b"))
        (fromFile nothing (.ofText "a\x00b") true 10) := by
  intro oneByte nothing
  have hbyte : fromFile oneByte (.ofText "t.json") true 10 =
      .error (.undecodable ⟨.startByte, 0xFF, 0, 1⟩) := by rfl
  have hnull : fromFile nothing (.ofText "a\x00b") true 10 = .error (.misuse .nullInPath) := by rfl
  rw [hbyte, hnull]
  exact ⟨not_keeps (.inr ⟨_, rfl⟩), not_keeps (.inl rfl)⟩

end Program

end Registry

end TermRules
