import TermRules.Interval.Basic
import TermRules.Number.Reading

/-!
Reading the fields of a mapping. A field has a plain name and perhaps an alias, which comes first
when both are present; a refusal is reported under the name that the input used. Fields are read
side by side, so that a mapping is refused with the names of all fields that fail.

Scalars are read leniently: numbers also from text and truth values, truth values also from 0 and
1 and a few words. Text is only ever read from text.
-/

namespace TermRules

/-- A result, or the names of the fields that failed. -/
inductive Gathered (α : Type) where
  | found (a : α)
  | refused (names : List String)

namespace Gathered

variable {α β : Type}

def map (f : α → β) : Gathered α → Gathered β
  | .found a => .found (f a)
  | .refused names => .refused names

/-- Applies one result to another; the failures of both sides count. -/
def apply (f : Gathered (α → β)) (x : Gathered α) : Gathered β :=
  match f, x with
  | .found f, .found a => .found (f a)
  | .found _, .refused names => .refused names
  | .refused names, .found _ => .refused names
  | .refused names, .refused more => .refused (names ++ more)

instance : Applicative Gathered where
  pure := .found
  seq f x := f.apply (x ())

/-- The names in ascending order, each once. -/
def sortedNames (names : List String) : List String :=
  (names.mergeSort fun a b => decide (a ≤ b)).eraseDups

def toExcept : Gathered α → Except (List String) α
  | .found a => .ok a
  | .refused names => .error (sortedNames names)

end Gathered

/-- A field's names. -/
structure FieldName where
  plain : String
  «alias» : String := plain

namespace FieldName

/-- The field's value and the name it stands under. -/
def find? (field : FieldName) (entries : Entries) : Option (String × Value) :=
  match entries.get? field.alias with
  | some v => some (field.alias, v)
  | none => (entries.get? field.plain).map (field.plain, ·)

variable {α : Type}

/-- A field that has to be there. -/
def required (field : FieldName) (read : Value → Option α) (entries : Entries) : Gathered α :=
  match field.find? entries with
  | none => .refused [field.alias]
  | some (name, v) => match read v with
    | some a => .found a
    | none => .refused [name]

/-- A field with a default. -/
def withDefault (field : FieldName) (default : α) (read : Value → Option α)
    (entries : Entries) : Gathered α :=
  match field.find? entries with
  | none => .found default
  | some (name, v) => match read v with
    | some a => .found a
    | none => .refused [name]

/-- A field that may be absent or null. -/
def optional (field : FieldName) (read : Value → Option α) (entries : Entries) :
    Gathered (Option α) :=
  field.withDefault none (fun v => if v.isNull then some none else (read v).map some) entries

end FieldName

/-- How something is read from the fields of a mapping. -/
class Readable (α : Type) where
  read : Entries → Gathered α

namespace Value

/-- Reads a value, which has to be a mapping. -/
def read {α : Type} [Readable α] : Value → Gathered α
  | .mapping entries => Readable.read entries
  | _ => .refused [""]

def textItems? : List Value → Option (List String)
  | [] => some []
  | .text s :: rest => (textItems? rest).map (s :: ·)
  | _ :: _ => none

/-- A list of texts. -/
def texts? : Value → Option (List String)
  | .list items => textItems? items
  | _ => none

/-- A list of texts, or a text that stands for the list of it alone. -/
def textOrTexts? : Value → Option (List String)
  | .text s => some [s]
  | v => v.texts?

/-- A whole number: also a truth value, a double that is whole and lies strictly between
`-2 ^ 63` and `2 ^ 63`, or a text that spells one. -/
def whole? : Value → Option Int
  | .int n => some n
  | .bool b => some (if b then 1 else 0)
  | .double d => d.toInt?.filter fun n => decide (n.natAbs < Nat.pow 2 63)
  | .text s => Reading.fieldInt? s
  | _ => none

/-- A bound of an interval. Whole numbers and doubles stay what they are. -/
def bound? : Value → Option Number
  | .int n => some (.int n)
  | .double d => some (.double d)
  | .bool b => some (.int (if b then 1 else 0))
  | .text s => Reading.fieldNumber? s
  | _ => none

def trueWords : List String := ["1", "t", "y", "true", "yes", "on"]

def falseWords : List String := ["0", "f", "n", "false", "no", "off"]

/-- A truth value, the numbers 0 and 1, or one of twelve words in any case. -/
def flag? : Value → Option Bool
  | .bool b => some b
  | .text s =>
      let word := String.ofList (s.toList.map Char.toLower)
      if trueWords.contains word then some true
      else if falseWords.contains word then some false
      else none
  | v => v.number?.bind fun n =>
      if n.same (.int 1) then some true else if n.same (.int 0) then some false else none

def intervalOf? (lower upper : Value) (lowerFlag upperFlag : Option Value) :
    Option (Interval Number) := do
  let lower ← lower.bound?
  let upper ← upper.bound?
  let lowerInclusive ← (lowerFlag.map flag?).getD (some true)
  let upperInclusive ← (upperFlag.map flag?).getD (some true)
  return ⟨lower, upper, lowerInclusive, upperInclusive⟩

def intervalNames : List String :=
  ["lower", "upper", "lower_inclusive", "upper_inclusive"]

/-- An interval: two to four items of a list, or a mapping with its parts by name and nothing
else. -/
def interval? : Value → Option (Interval Number)
  | .list [lower, upper] => intervalOf? lower upper none none
  | .list [lower, upper, lowerFlag] => intervalOf? lower upper (some lowerFlag) none
  | .list [lower, upper, lowerFlag, upperFlag] =>
      intervalOf? lower upper (some lowerFlag) (some upperFlag)
  | .mapping entries => do
      if !entries.all fun (k, _) => intervalNames.any fun name => k = .text name then none
      let lower ← Entries.get? entries "lower"
      let upper ← Entries.get? entries "upper"
      intervalOf? lower upper (Entries.get? entries "lower_inclusive")
        (Entries.get? entries "upper_inclusive")
  | _ => none

end Value

end TermRules
