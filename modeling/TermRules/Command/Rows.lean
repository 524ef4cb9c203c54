import TermRules.Json.Printer
import TermRules.Record.Form
import TermRules.Rule.Basic

/-!
Records and rules as rows of a table: where a field stands, its name and its value. The place of a
nested record or rule is a dotted path from `$`.
-/

namespace TermRules

namespace Record

mutual

def rows (place : String) : Record Number → List (List String)
  | ⟨category, length, regex, range, decimals, size, marks, target, casts, customs, child,
      keyRecord, valueRecord⟩ =>
      (ownForm ⟨category, length, regex, range, decimals, size, marks, target, casts, customs,
          none, none, none⟩).map (fun (name, v) => [place, name, Json.line false v]) ++
        partRows (place ++ ".child") child ++ partRows (place ++ ".key_record") keyRecord ++
        partRows (place ++ ".value_record") valueRecord

def partRows (place : String) : Option (Record Number) → List (List String)
  | none => []
  | some r => rows place r

end

end Record

namespace Rule

def ownRows (place : String) (r : Rule) : List (List String) :=
  let names (field : String) (ss : List String) : List (List String) :=
    if ss.isEmpty then [] else [[place, field, ", ".intercalate ss]]
  [[place, "kind", r.kind.name]] ++
    r.directives.map (fun d =>
      [place, d.name.name, if d.value.isNull then "" else Json.line false d.value]) ++
    (if r.references.isEmpty then []
      else [[place, "references", Json.line false (.fields r.references)]]) ++
    names "cast" r.casts ++ names "custom" r.customs

mutual

def rows (place : String) : Rule → List (List String)
  | ⟨kind, directives, references, casts, customs, items, keys, values⟩ =>
      ownRows place ⟨kind, directives, references, casts, customs, none, none, none⟩ ++
        partRows (place ++ ".items") items ++ partRows (place ++ ".keys") keys ++
        partRows (place ++ ".values") values

def partRows (place : String) : Option Rule → List (List String)
  | none => []
  | some r => rows place r

end

end Rule

end TermRules
