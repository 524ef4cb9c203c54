import TermRules.Proofs.Success
import TermRules.Record.Form

/-!
Records from their form. The form of a record is a mapping of fields with different names, each
there or not by what it holds; so every field is found under its name, and reading gives the record
back. The bounds are read as values, whatever they were before.
-/

namespace TermRules

/-- The fields that are there, each with its name. -/
def present (slots : List (String × Option Value)) : List (String × Value) :=
  slots.filterMap fun (name, v) => v.map (name, ·)

private theorem present_append (slots more : List (String × Option Value)) :
    present (slots ++ more) = present slots ++ present more :=
  List.filterMap_append

namespace Entries

/-- Fields as they stand in a mapping. -/
def named (fields : List (String × Value)) : Entries :=
  fields.map fun (k, v) => (.text k, v)

/-- The value of the first field of the name that is there. -/
theorem get?_present_cons (other name : String) (v : Option Value)
    (slots : List (String × Option Value)) :
    get? (named (present ((other, v) :: slots))) name =
      (if other = name then v else none).or (get? (named (present slots)) name) := by
  cases v with
  | none =>
      rw [ite_self, Option.none_or]
      rfl
  | some v =>
      by_cases h : other = name <;> simp [named, present, get?, h]

variable {slots : List (String × Option Value)} {name : String} {v : Option Value}

private theorem get?_present_of_not_mem (h : name ∉ slots.map Prod.fst) :
    get? (named (present slots)) name = none := by
  induction slots with
  | nil => rfl
  | cons slot slots ih =>
      rw [List.map_cons, List.mem_cons, not_or] at h
      rw [get?_present_cons, if_neg (Ne.symm h.1), Option.none_or]
      exact ih h.2

/-- Every field is found under its name. -/
theorem get?_present (distinct : (slots.map Prod.fst).Nodup) (h : (name, v) ∈ slots) :
    get? (named (present slots)) name = v := by
  induction slots with
  | nil => contradiction
  | cons slot slots ih =>
      obtain ⟨hfresh, hdistinct⟩ := List.nodup_cons.mp distinct
      rw [get?_present_cons]
      rcases List.mem_cons.mp h with rfl | hmem
      · rw [if_pos rfl, get?_present_of_not_mem hfresh, Option.or_none]
      · have hother : slot.1 ≠ name := fun heq => hfresh (heq ▸ List.mem_map_of_mem hmem)
        rw [if_neg hother, Option.none_or]
        exact ih hdistinct hmem

end Entries

private theorem Value.texts?_texts (ss : List String) : (Value.texts ss).texts? = some ss := by
  change Value.textItems? (ss.map .text) = some ss
  induction ss with
  | nil => rfl
  | cons s ss ih =>
      change (Value.textItems? (ss.map .text)).map (s :: ·) = _
      rw [ih]
      rfl

def Interval.map {β γ : Type} (f : β → γ) (i : Interval β) : Interval γ :=
  ⟨f i.lower, f i.upper, i.lowerInclusive, i.upperInclusive⟩

namespace Record

section Map

variable {β γ : Type}

mutual

/-- The record with other bounds in all its intervals, those of nested records included. -/
def map (f : β → γ) : Record β → Record γ
  | ⟨category, length, regex, range, decimals, size, marks, target, casts, customs,
      child, keyRecord, valueRecord⟩ =>
      ⟨category, length.map (Interval.map f), regex, range.map (Interval.map f), decimals,
        size.map (Interval.map f), marks, target, casts, customs, mapPart f child,
        mapPart f keyRecord, mapPart f valueRecord⟩

def mapPart (f : β → γ) : Option (Record β) → Option (Record γ)
  | none => none
  | some r => some (map f r)

end

variable {f : β → γ} {g : γ → β}

private theorem map_interval_map (h : Function.LeftInverse g f) (i : Option (Interval β)) :
    (i.map (Interval.map f)).map (Interval.map g) = i := by
  cases i with
  | none => rfl
  | some i => simp [Interval.map, h i.lower, h i.upper]

mutual

private theorem map_map_of_leftInverse (h : Function.LeftInverse g f) :
    ∀ r : Record β, (r.map f).map g = r
  | ⟨category, length, regex, range, decimals, size, marks, target, casts, customs,
      child, keyRecord, valueRecord⟩ => by
      simp only [map, map_interval_map h, mapPart_mapPart_of_leftInverse h]

private theorem mapPart_mapPart_of_leftInverse (h : Function.LeftInverse g f) :
    ∀ part : Option (Record β), mapPart g (mapPart f part) = part
  | none => rfl
  | some r => congrArg some (map_map_of_leftInverse h r)

end

end Map

variable {β : Type} [Bound β]

/-- A mark, if it is set. -/
def markSlot (isSet : Bool) : Option Value :=
  if isSet then some (.bool true) else none

/-- Texts, unless there are none. -/
def textsSlot (ss : List String) : Option Value :=
  if ss.isEmpty then none else some (.texts ss)

def categoryValue : Option Category → Value
  | some c => .text c.name
  | none => .null

/-- All fields of the form of a record, those that are left out without a value. -/
def slots (r : Record β) : List (String × Option Value) :=
  [("category", some (categoryValue r.category)), ("length", r.length.map Interval.form),
    ("range", r.range.map Interval.form), ("size", r.size.map Interval.form),
    ("decimals", r.decimals.map .int), ("regex", textsSlot r.regex),
    ("is_url", markSlot r.marks.url), ("is_hex", markSlot r.marks.hexadecimal),
    ("is_email", markSlot r.marks.email), ("is_int", markSlot r.marks.integer),
    ("is_stamp", markSlot r.marks.timestamp), ("is_set", markSlot r.marks.set),
    ("is_ref", markSlot r.marks.reference), ("collection", r.target.collection.map .text),
    ("instance", r.target.instanceName.map .text), ("terms", r.target.terms.map .texts),
    ("fields", r.target.fields.map .texts), ("cast", textsSlot r.casts),
    ("custom", textsSlot r.customs), ("child", r.child.map form),
    ("key_record", r.keyRecord.map form), ("value_record", r.valueRecord.map form)]

private theorem distinct_slots (r : Record β) : (r.slots.map Prod.fst).Nodup := by
  simp only [slots, List.map_cons, List.map_nil]
  decide

private theorem intervalField_eq (name : String) (i : Option (Interval β)) :
    intervalField name i = present [(name, i.map Interval.form)] := by
  cases i <;> rfl

private theorem textsField_eq (name : String) (ss : List String) :
    textsField name ss = present [(name, textsSlot ss)] := by
  cases ss <;> rfl

private theorem partForm_eq (name : String) (part : Option (Record β)) :
    partForm name part = present [(name, part.map form)] := by
  cases part <;> rfl

private theorem marksForm_eq (m : Marks) : m.form = present [("is_url", markSlot m.url),
    ("is_hex", markSlot m.hexadecimal), ("is_email", markSlot m.email),
    ("is_int", markSlot m.integer), ("is_stamp", markSlot m.timestamp), ("is_set", markSlot m.set),
    ("is_ref", markSlot m.reference)] := by
  have hmark (name : String) (isSet : Bool) : (markSlot isSet).map (name, ·) =
      if isSet then some (name, .bool true) else none := by
    cases isSet <;> rfl
  simp only [Marks.form, present, List.filterMap_cons, List.filterMap_nil, hmark]

private theorem targetForm_eq (t : Target) :
    t.form = present [("collection", t.collection.map .text),
      ("instance", t.instanceName.map .text), ("terms", t.terms.map .texts),
      ("fields", t.fields.map .texts)] := rfl

private theorem form_eq_slots (r : Record β) :
    r.form = .mapping (Entries.named (present r.slots)) := by
  obtain ⟨category, length, regex, range, decimals, size, marks, target, casts, customs,
    child, keyRecord, valueRecord⟩ := r
  have hdecimals : (decimals.map fun n => ("decimals", Value.int n)).toList =
      present [("decimals", decimals.map .int)] := by
    cases decimals <;> rfl
  have hcategory (v : Value) : [("category", v)] = present [("category", some v)] := rfl
  cases category <;>
  · simp only [form, ownForm, intervalField_eq, textsField_eq, partForm_eq, marksForm_eq,
      targetForm_eq, hdecimals, hcategory, ← present_append]
    rfl

/-- The nested record that a value stands for; null stands for none. -/
def readPart : Option Value → Except Misuse (Option (Record Value))
  | none => .ok none
  | some v => if v.isNull then .ok none else some <$> read v

private theorem partUnder_eq (name : String) (entries : Entries) :
    partUnder name entries = readPart (Entries.get? entries name) := by
  induction entries with
  | nil => rfl
  | cons e entries ih =>
      obtain ⟨k, v⟩ := e
      rw [partUnder, ih]
      by_cases h : k = .text name <;> simp [Entries.get?, readPart, h]

private theorem isNull_form (r : Record β) : r.form.isNull = false := by
  obtain ⟨category, length, regex, range, decimals, size, marks, target, casts, customs,
    child, keyRecord, valueRecord⟩ := r
  rfl

section Reading

variable {r : Record β} {entries : Entries}

/-- The entries hold the fields of the record, each under its name. -/
def HeldBy (r : Record β) (entries : Entries) : Prop :=
  ∀ name v, (name, v) ∈ r.slots → Entries.get? entries name = v

private theorem HeldBy.interval (h : r.HeldBy entries) {name : String} (i : Option (Interval β))
    (hmem : (name, i.map Interval.form) ∈ r.slots) :
    readInterval entries name = .ok (i.map (Interval.map Bound.toValue)) := by
  rw [readInterval, h name _ hmem]
  cases i <;> rfl

private theorem HeldBy.texts (h : r.HeldBy entries) {name : String} (ss : List String)
    (hmem : (name, textsSlot ss) ∈ r.slots) : readTexts entries name = ss := by
  rw [readTexts, h name _ hmem]
  cases ss with
  | nil => rfl
  | cons s ss => exact congrArg (·.getD []) (Value.texts?_texts (s :: ss))

private theorem HeldBy.mark (h : r.HeldBy entries) {name : String} (isSet : Bool)
    (hmem : (name, markSlot isSet) ∈ r.slots) :
    (Entries.get? entries name).any Value.isTruthy = isSet := by
  rw [h name _ hmem]
  cases isSet <;> rfl

private theorem HeldBy.text (h : r.HeldBy entries) {name : String} (s : Option String)
    (hmem : (name, s.map .text) ∈ r.slots) : readText entries name = s := by
  rw [readText, h name _ hmem]
  cases s <;> rfl

private theorem HeldBy.optionalTexts (h : r.HeldBy entries) {name : String}
    (ss : Option (List String)) (hmem : (name, ss.map .texts) ∈ r.slots) :
    (Entries.get? entries name).bind Value.texts? = ss := by
  rw [h name _ hmem]
  cases ss with
  | none => rfl
  | some ss => exact Value.texts?_texts ss

private theorem HeldBy.decimals (h : r.HeldBy entries) :
    (Entries.get? entries "decimals").bind Value.whole? = r.decimals := by
  rw [h "decimals" (r.decimals.map .int) (by simp [slots])]
  cases r.decimals <;> rfl

private theorem HeldBy.category (h : r.HeldBy entries) : readCategory entries = .ok r.category := by
  rw [readCategory, h "category" (some (categoryValue r.category)) (by simp [slots])]
  cases r.category with
  | none => rfl
  | some c => simp [categoryValue, Value.text?, Category.ofName?_name]

private theorem HeldBy.marks (h : r.HeldBy entries) : Marks.read entries = r.marks := by
  simp only [Marks.read]
  rw [h.mark r.marks.url (by simp [slots]),
    h.mark r.marks.hexadecimal (by simp [slots]),
    h.mark r.marks.email (by simp [slots]), h.mark r.marks.integer (by simp [slots]),
    h.mark r.marks.timestamp (by simp [slots]), h.mark r.marks.set (by simp [slots]),
    h.mark r.marks.reference (by simp [slots])]

private theorem HeldBy.target (h : r.HeldBy entries) : readTarget entries = r.target := by
  rw [readTarget, h.text r.target.collection (by simp [slots]),
    h.text r.target.instanceName (by simp [slots]),
    h.optionalTexts r.target.terms (by simp [slots]),
    h.optionalTexts r.target.fields (by simp [slots])]

private theorem HeldBy.own (h : r.HeldBy entries) : readOwn entries =
    .ok { r.map Bound.toValue with child := none, keyRecord := none, valueRecord := none } := by
  rw [readOwn, h.category, h.interval r.length (by simp [slots]),
    h.interval r.range (by simp [slots]), h.interval r.size (by simp [slots]), h.decimals,
    h.marks, h.target, h.texts r.regex (by simp [slots]), h.texts r.casts (by simp [slots]),
    h.texts r.customs (by simp [slots])]
  obtain ⟨category, length, regex, range, decimals, size, marks, target, casts, customs,
    child, keyRecord, valueRecord⟩ := r
  rfl

private theorem heldBy_form (r : Record β) :
    r.HeldBy (Entries.named (present r.slots)) :=
  fun _ _ hmem => Entries.get?_present (distinct_slots r) hmem

end Reading

mutual

private theorem read_form : ∀ r : Record β, read r.form = .ok (r.map Bound.toValue)
  | ⟨category, length, regex, range, decimals, size, marks, target, casts, customs,
      child, keyRecord, valueRecord⟩ => by
      have held := heldBy_form ⟨category, length, regex, range, decimals, size, marks, target,
        casts, customs, child, keyRecord, valueRecord⟩
      rw [form_eq_slots, read, held.own, partUnder_eq, partUnder_eq, partUnder_eq,
        held "child" (child.map form) (by simp [slots]),
        held "key_record" (keyRecord.map form) (by simp [slots]),
        held "value_record" (valueRecord.map form) (by simp [slots]), readPart_form child,
        readPart_form keyRecord, readPart_form valueRecord]
      rfl

private theorem readPart_form : ∀ part : Option (Record β),
    readPart (part.map form) = .ok (mapPart Bound.toValue part)
  | none => rfl
  | some r => by
      rw [Option.map_some, readPart, isNull_form, read_form r]
      rfl

end

/-- The record that a form stands for, with each bound made of the value that is read for it. -/
def decode (restore : Value → β) (v : Value) : Except Misuse (Record β) :=
  map restore <$> read v

theorem decode_form {restore : Value → β} (h : Function.LeftInverse restore Bound.toValue)
    (r : Record β) : decode restore r.form = .ok r := by
  rw [decode, read_form]
  exact congrArg Except.ok (map_map_of_leftInverse h r)

end Record

end TermRules
