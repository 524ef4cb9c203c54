import TermRules.Term.Basic

/-!
Options of a descriptor: the type of a field, the format it is held in and constraints of its own.
For an object there may be options for its keys and its values in turn.
-/

namespace TermRules

structure Options where
  type : Option String := none
  format : Option String := none
  constraints : Constraints := {}
  key : Option Options := none
  value : Option Options := none
  deriving Inhabited

namespace Options

mutual

/-- The written form: fields that are not set are left out. -/
def form : Options → Value
  | ⟨type, format, constraints, key, value⟩ =>
      .fields ((type.map fun t => ("type", Value.text t)).toList ++
        (format.map fun f => ("format", Value.text f)).toList ++ constraints.form ++
        partForm "type-key" key ++ partForm "type-value" value)

def partForm (name : String) : Option Options → List (String × Value)
  | none => []
  | some o => [(name, o.form)]

end

/-- Options from the fields other than the nested ones, still waiting for these. -/
def readOwn (entries : Entries) : Gathered (Option Options → Option Options → Options) :=
  Options.mk
    <$> FieldName.optional ⟨"type", "type"⟩ Value.text? entries
    <*> FieldName.optional ⟨"format", "format"⟩ Value.text? entries
    <*> Constraints.read entries

mutual

/-- Reads options. Fields of other names are ignored. -/
def read : Value → Gathered Options
  | .mapping entries =>
      readOwn entries
        <*> Term.pickAxis [("type-key", partUnder "type-key" entries),
          ("key", partUnder "key" entries)]
        <*> Term.pickAxis [("type-value", partUnder "type-value" entries),
          ("value", partUnder "value" entries)]
  | _ => .refused [""]

/-- The nested options under the name: `none` if there is no such field, `some none` if they
cannot be read. -/
def partUnder (name : String) : Entries → Option (Option (Option Options))
  | [] => none
  | (k, v) :: rest =>
      if k = .text name then
        if v.isNull then some (some none)
        else match read v with
          | .found o => some (some (some o))
          | .refused _ => some none
      else partUnder name rest

end

end Options

end TermRules
