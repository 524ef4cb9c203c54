import TermRules.Rule.Basic
import TermRules.Value.Display

/-!
A rule in one line for a reader, such as `number, 0 ≤ x ≤ 100, ≤ 2 decimal places`.
-/

namespace TermRules

/-- A limit as a reader expects it: a whole double without its fraction. -/
def Value.limitText : Value → String
  | .double d => match d.toInt? with
    | some n => toString n
    | none => d.text
  | v => v.display

namespace Rule

/-- The bounds of one subject in one phrase, if it has any. -/
def boundsText (subject : String) (low high : Option Value) (lowStrict highStrict : Bool) :
    Option String :=
  let above := if highStrict then "<" else "≤"
  match low, high with
  | some l, some h =>
      let below := if lowStrict then "<" else "≤"
      some s!"{l.limitText} {below} {subject} {above} {h.limitText}"
  | some l, none =>
      let sign := if lowStrict then ">" else "≥"
      some s!"{subject} {sign} {l.limitText}"
  | none, some h => some s!"{subject} {above} {h.limitText}"
  | none, none => none

/-- How many members a value has to have. -/
def extentText (r : Rule) (subject : String) (point low high : DirectiveName) :
    Option String :=
  match r.limit? point with
  | some v => some s!"exact {subject} {v.limitText}"
  | none => boundsText subject (r.limit? low) (r.limit? high) false false

/-- A strict bound stands in where there is no inclusive one. -/
def rangeText (r : Rule) : Option String :=
  match r.limit? .exact with
  | some v => some s!"x = {v.limitText}"
  | none =>
      let lowStrict := (r.limit? .min).isNone && r.has .greater
      let highStrict := (r.limit? .max).isNone && r.has .less
      boundsText "x" (r.limit? (if lowStrict then .greater else .min))
        (r.limit? (if highStrict then .less else .max)) lowStrict highStrict

def markLabels : List (DirectiveName × String) :=
  [(.required, "required"), (.address, "uri"), (.hexadecimal, "hexadecimal"),
    (.email, "e-mail"), (.integer, "integer"), (.timestamp, "timestamp"),
    (.unique, "unique elements")]

def ownPhrases (r : Rule) : List String :=
  [r.kind.name] ++
    (markLabels.filter fun m => r.has m.1).map (·.2) ++
    (r.extentText "length" .exactLength .minLength .maxLength).toList ++
    r.rangeText.toList ++
    ((r.limit? .precision).map fun v => s!"≤ {v.display} decimal places").toList ++
    (r.extentText "size" .exactSize .minSize .maxSize).toList ++
    ((r.all .pattern).map fun d => s!"matches /{d.value.display}/") ++
    ((r.references.find? fun e => e.1 == "collection").map
      fun e => s!"references {e.2.display}").toList

mutual

def phrases : Rule → List String
  | ⟨kind, directives, references, casts, customs, items, keys, values⟩ =>
      ownPhrases ⟨kind, directives, references, casts, customs, none, none, none⟩ ++
        partPhrase "each element" items ++ partPhrase "keys" keys ++ partPhrase "values" values

def partPhrase (label : String) : Option Rule → List String
  | none => []
  | some r => [label ++ ": (" ++ ", ".intercalate (phrases r) ++ ")"]

end

def summary (r : Rule) : String :=
  ", ".intercalate r.phrases

end Rule

end TermRules
