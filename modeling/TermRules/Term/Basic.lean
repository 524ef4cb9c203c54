import TermRules.Constraints

/-!
Terms: the nodes of a type taxonomy. A term narrows the term its parent link refers to. The terms
of an object may carry whole hierarchies for the keys and the values of the object. A hierarchy
is a list of terms from the most specific to the most general.
-/

namespace TermRules

structure Term where
  id : String
  key : String
  category : String
  parent : Option String := none
  constraints : Constraints := {}
  casts : List String := []
  customs : List String := []
  keyAxis : Option (List Term) := none
  valueAxis : Option (List Term) := none
  deriving Inhabited

abbrev Hierarchy := List Term

namespace Term

def isList (t : Term) : Bool :=
  t.category == "list"

/-- The fields of a term other than its axes. -/
def ownForm (t : Term) : List (String × Value) :=
  [("_id", .text t.id), ("_key", .text t.key), ("category", .text t.category)] ++
    (t.parent.map fun p => ("parent", Value.text p)).toList ++ t.constraints.form ++
    [("type-cast", .texts t.casts), ("type-custom", .texts t.customs)]

mutual

/-- The written form: fields that are not set are left out. -/
def form : Term → Value
  | ⟨id, key, category, parent, constraints, casts, customs, keyAxis, valueAxis⟩ =>
      .fields (ownForm ⟨id, key, category, parent, constraints, casts, customs, none, none⟩ ++
        axisForm "type-key" keyAxis ++ axisForm "type-value" valueAxis)

def axisForm (name : String) : Option (List Term) → List (String × Value)
  | none => []
  | some terms => [(name, .list (forms terms))]

def forms : List Term → List Value
  | [] => []
  | t :: ts => t.form :: forms ts

end

def idField : FieldName := ⟨"id", "_id"⟩

def keyField : FieldName := ⟨"key", "_key"⟩

def castField : FieldName := ⟨"cast", "type-cast"⟩

def customField : FieldName := ⟨"custom", "type-custom"⟩

/-- A term from the fields other than its axes, still waiting for these. -/
def readOwn (entries : Entries) :
    Gathered (Option (List Term) → Option (List Term) → Term) :=
  Term.mk
    <$> idField.required Value.text? entries
    <*> keyField.required Value.text? entries
    <*> FieldName.required ⟨"category", "category"⟩ Value.text? entries
    <*> FieldName.optional ⟨"parent", "parent"⟩ Value.text? entries
    <*> Constraints.read entries
    <*> castField.withDefault [] Value.textOrTexts? entries
    <*> customField.withDefault [] Value.textOrTexts? entries

/-- The first of the names that has an axis under it. -/
def pickAxis {α : Type} : List (String × Option (Option (Option α))) → Gathered (Option α)
  | [] => .found none
  | (_, none) :: rest => pickAxis rest
  | (name, some none) :: _ => .refused [name]
  | (_, some (some axis)) :: _ => .found axis

mutual

/-- Reads a term. Fields of other names are ignored. -/
def read : Value → Gathered Term
  | .mapping entries =>
      readOwn entries
        <*> pickAxis [("type-key", axisUnder "type-key" entries),
          ("key_hierarchy", axisUnder "key_hierarchy" entries)]
        <*> pickAxis [("type-value", axisUnder "type-value" entries),
          ("value_hierarchy", axisUnder "value_hierarchy" entries)]
  | _ => .refused [""]

/-- The axis under the name: `none` if there is no such field, `some none` if it cannot be read. -/
def axisUnder (name : String) : Entries → Option (Option (Option (List Term)))
  | [] => none
  | (k, v) :: rest => if k = .text name then some (readAxis v) else axisUnder name rest

def readAxis : Value → Option (Option (List Term))
  | .scalar .null => some none
  | .list items => (readAll items).map some
  | _ => none

def readAll : List Value → Option (List Term)
  | [] => some []
  | v :: vs =>
      match read v, readAll vs with
      | .found t, some ts => some (t :: ts)
      | _, _ => none

end

end Term

end TermRules
