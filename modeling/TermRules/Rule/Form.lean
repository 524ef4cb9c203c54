import TermRules.Misuse
import TermRules.Rule.Basic

/-!
The written form of a rule: a mapping that leaves out what is absent or empty, and the reading of
that form.
-/

namespace TermRules

def Directive.form (d : Directive) : Value :=
  .fields (("name", .text d.name.name) :: if d.value.isNull then [] else [("value", d.value)])

def Directive.read (v : Value) : Except Misuse Directive := do
  let name ← ((v.get? "name").bind Value.text?).elim (.error .unknownName) .ok
  match DirectiveName.ofName? name with
  | some name => return ⟨name, (v.get? "value").getD .null⟩
  | none => throw .unknownName

namespace Rule

/-- A list under a name, unless it is empty. -/
def textsField (name : String) (ss : List String) : List (String × Value) :=
  if ss.isEmpty then [] else [(name, .texts ss)]

mutual

def form : Rule → Value
  | ⟨kind, directives, references, casts, customs, items, keys, values⟩ =>
      .fields
        ([("kind", .text kind.name), ("directives", .list (directives.map Directive.form))] ++
          (if references.isEmpty then [] else [("references", .fields references)]) ++
          textsField "cast" casts ++ textsField "custom" customs ++
          partForm "items" items ++ partForm "keys" keys ++ partForm "values" values)

def partForm (name : String) : Option Rule → List (String × Value)
  | none => []
  | some r => [(name, r.form)]

end

/-- The fields of a mapping that have text names. -/
def referencesOf : Value → List (String × Value)
  | .mapping entries => entries.filterMap fun (k, v) => match k with
    | .text name => some (name, v)
    | _ => none
  | _ => []

def textsOf : Value → List String
  | .list items => items.filterMap Value.text?
  | _ => []

/-- The parts of a rule's form, read one field at a time. -/
structure Parts where
  kind : Option Kind := none
  directives : List Directive := []
  references : List (String × Value) := []
  casts : List String := []
  customs : List String := []
  items : Option Rule := none
  keys : Option Rule := none
  values : Option Rule := none

def Parts.toRule (p : Parts) : Except Misuse Rule :=
  match p.kind with
  | some kind =>
      .ok ⟨kind, p.directives, p.references, p.casts, p.customs, p.items, p.keys, p.values⟩
  | none => .error .unknownName

mutual

/-- Reads the form of a rule. Fields of other names are ignored. -/
def read : Value → Except Misuse Rule
  | .mapping entries => do (← readFields entries).toRule
  | _ => .error .noFields

def readFields : Entries → Except Misuse Parts
  | [] => .ok {}
  | (k, v) :: rest => do
      let parts ← readFields rest
      match k with
      | .text "kind" => match v.text?.bind Kind.ofName? with
        | some kind => return { parts with kind := some kind }
        | none => throw .unknownName
      | .text "directives" => match v with
        | .list items => return { parts with directives := ← items.mapM Directive.read }
        | _ => throw .notIterable
      | .text "references" => return { parts with references := referencesOf v }
      | .text "cast" => return { parts with casts := textsOf v }
      | .text "custom" => return { parts with customs := textsOf v }
      | .text "items" => return { parts with items := ← readPart v }
      | .text "keys" => return { parts with keys := ← readPart v }
      | .text "values" => return { parts with values := ← readPart v }
      | _ => return parts

/-- A nested rule; null stands for none. -/
def readPart : Value → Except Misuse (Option Rule)
  | .scalar .null => .ok none
  | .mapping entries => do return some (← (← readFields entries).toRule)
  | _ => .error .noFields

end

end Rule

end TermRules
