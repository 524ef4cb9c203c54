import TermRules.Interval.Loose
import TermRules.Record.Basic

/-!
The written form of a record: a mapping that leaves out what is not set, and the reading of that
form with bounds of any value.
-/

namespace TermRules

namespace Marks

def form (m : Marks) : List (String × Value) :=
  [("is_url", m.url), ("is_hex", m.hexadecimal), ("is_email", m.email), ("is_int", m.integer),
    ("is_stamp", m.timestamp), ("is_set", m.set), ("is_ref", m.reference)].filterMap
    fun (name, isSet) => if isSet then some (name, .bool true) else none

def read (entries : Entries) : Marks :=
  let mark (name : String) : Bool := (Entries.get? entries name).any Value.isTruthy
  ⟨mark "is_url", mark "is_hex", mark "is_email", mark "is_int", mark "is_stamp", mark "is_set",
    mark "is_ref"⟩

end Marks

namespace Record

variable {β : Type} [Bound β]

def intervalField (name : String) (i : Option (Interval β)) : List (String × Value) :=
  (i.map fun i => (name, i.form)).toList

def textsField (name : String) (ss : List String) : List (String × Value) :=
  if ss.isEmpty then [] else [(name, .texts ss)]

/-- The fields of a record other than its nested records. -/
def ownForm (r : Record β) : List (String × Value) :=
  [("category", match r.category with
    | some c => Value.text c.name
    | none => .null)] ++
    intervalField "length" r.length ++ intervalField "range" r.range ++
    intervalField "size" r.size ++
    (r.decimals.map fun n => ("decimals", Value.int n)).toList ++
    textsField "regex" r.regex ++ r.marks.form ++ r.target.form ++
    textsField "cast" r.casts ++ textsField "custom" r.customs

mutual

def form : Record β → Value
  | ⟨category, length, regex, range, decimals, size, marks, target, casts, customs, child,
      keyRecord, valueRecord⟩ =>
      .fields
        (ownForm ⟨category, length, regex, range, decimals, size, marks, target, casts, customs,
            none, none, none⟩ ++
          partForm "child" child ++ partForm "key_record" keyRecord ++
          partForm "value_record" valueRecord)

def partForm (name : String) : Option (Record β) → List (String × Value)
  | none => []
  | some r => [(name, r.form)]

end

def readInterval (entries : Entries) (name : String) :
    Except Misuse (Option (Interval Value)) :=
  match Entries.get? entries name with
  | none | some .null => .ok none
  | some v => some <$> Interval.ofParts v

def readCategory (entries : Entries) : Except Misuse (Option Category) :=
  match Entries.get? entries "category" with
  | none | some .null => .ok none
  | some v => match v.text?.bind Category.ofName? with
    | some c => .ok (some c)
    | none => .error .unknownName

def readTexts (entries : Entries) (name : String) : List String :=
  ((Entries.get? entries name).bind Value.texts?).getD []

def readText (entries : Entries) (name : String) : Option String :=
  (Entries.get? entries name).bind Value.text?

def readTarget (entries : Entries) : Target where
  collection := readText entries "collection"
  instanceName := readText entries "instance"
  terms := (Entries.get? entries "terms").bind Value.texts?
  fields := (Entries.get? entries "fields").bind Value.texts?

/-- A record from the fields other than its nested records. -/
def readOwn (entries : Entries) : Except Misuse (Record Value) := do
  return {
    category := ← readCategory entries
    length := ← readInterval entries "length"
    regex := readTexts entries "regex"
    range := ← readInterval entries "range"
    decimals := (Entries.get? entries "decimals").bind Value.whole?
    size := ← readInterval entries "size"
    marks := Marks.read entries
    target := readTarget entries
    casts := readTexts entries "cast"
    customs := readTexts entries "custom" }

mutual

/-- Reads the form of a record. Fields of other names are ignored. -/
def read : Value → Except Misuse (Record Value)
  | .mapping entries => do
      return { ← readOwn entries with
        child := ← partUnder "child" entries
        keyRecord := ← partUnder "key_record" entries
        valueRecord := ← partUnder "value_record" entries }
  | _ => .error .noFields

/-- The nested record under the name; null stands for none. -/
def partUnder (name : String) : Entries → Except Misuse (Option (Record Value))
  | [] => .ok none
  | (k, v) :: rest =>
      if k = .text name then
        if v.isNull then .ok none else some <$> read v
      else partUnder name rest

end

end Record

end TermRules
