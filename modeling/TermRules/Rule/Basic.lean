import TermRules.Value.Basic

/-!
Rules: trees of directives on one value. The items of an array, and the keys and values of an
object, have rules of their own.
-/

namespace TermRules

inductive Kind where
  | any
  | boolean
  | string
  | number
  | array
  | struct
  | object
  deriving DecidableEq, Repr, Inhabited

namespace Kind

def all : List Kind :=
  [.any, .boolean, .string, .number, .array, .struct, .object]

def name : Kind → String
  | .any => "any"
  | .boolean => "boolean"
  | .string => "string"
  | .number => "number"
  | .array => "array"
  | .struct => "struct"
  | .object => "object"

def ofName? (s : String) : Option Kind :=
  all.find? fun k => k.name == s

theorem ofName?_name (k : Kind) : ofName? k.name = some k := by
  cases k <;> decide

end Kind

/-- What a directive demands. Bounds are inclusive, except those of `greater` and `less`. -/
inductive DirectiveName where
  | required
  | exactLength
  | minLength
  | maxLength
  | pattern
  | address
  | hexadecimal
  | email
  | exact
  | min
  | max
  | greater
  | less
  | precision
  | integer
  | timestamp
  | exactSize
  | minSize
  | maxSize
  | unique
  deriving DecidableEq, Repr, Inhabited

namespace DirectiveName

def all : List DirectiveName :=
  [.required, .exactLength, .minLength, .maxLength, .pattern, .address, .hexadecimal, .email,
    .exact, .min, .max, .greater, .less, .precision, .integer, .timestamp, .exactSize, .minSize,
    .maxSize, .unique]

def name : DirectiveName → String
  | .required => "required"
  | .exactLength => "exact_length"
  | .minLength => "min_length"
  | .maxLength => "max_length"
  | .pattern => "matches"
  | .address => "uri"
  | .hexadecimal => "hex"
  | .email => "email"
  | .exact => "exact"
  | .min => "min"
  | .max => "max"
  | .greater => "greater"
  | .less => "less"
  | .precision => "precision"
  | .integer => "integer"
  | .timestamp => "timestamp"
  | .exactSize => "exact_size"
  | .minSize => "min_size"
  | .maxSize => "max_size"
  | .unique => "unique"

def ofName? (s : String) : Option DirectiveName :=
  all.find? fun d => d.name == s

theorem ofName?_name (d : DirectiveName) : ofName? d.name = some d := by
  cases d <;> decide

end DirectiveName

/-- A demand with its limit; one without a limit has the null value. -/
structure Directive where
  name : DirectiveName
  value : Value := .null
  deriving Inhabited

/-- A rule. References say where a value points to; they are carried along and not checked. -/
structure Rule where
  kind : Kind
  directives : List Directive := []
  references : List (String × Value) := []
  casts : List String := []
  customs : List String := []
  items : Option Rule := none
  keys : Option Rule := none
  values : Option Rule := none

namespace Rule

/-- The first directive of the name. -/
def get? (r : Rule) (name : DirectiveName) : Option Directive :=
  r.directives.find? fun d => d.name == name

def has (r : Rule) (name : DirectiveName) : Bool :=
  (r.get? name).isSome

def all (r : Rule) (name : DirectiveName) : List Directive :=
  r.directives.filter fun d => d.name == name

/-- The limit of the first directive of the name; `none` also if it has no limit. -/
def limit? (r : Rule) (name : DirectiveName) : Option Value :=
  (r.get? name).bind fun d => if d.value.isNull then none else some d.value

/-- The rule with a leading demand for a value, unless it makes that demand already. -/
def required (r : Rule) : Rule :=
  if r.has .required then r else { r with directives := ⟨.required, .null⟩ :: r.directives }

end Rule

end TermRules
