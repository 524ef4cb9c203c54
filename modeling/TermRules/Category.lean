/-!
The seven base categories. A term names its category by text, so that an unknown name is reported
when the term is compiled and not when it is read.
-/

namespace TermRules

inductive Category where
  | any
  | boolean
  | text
  | numeric
  | list
  | struct
  | object
  deriving DecidableEq, Repr, Inhabited

namespace Category

def all : List Category :=
  [.any, .boolean, .text, .numeric, .list, .struct, .object]

def name : Category → String
  | .any => "any"
  | .boolean => "boolean"
  | .text => "text"
  | .numeric => "numeric"
  | .list => "list"
  | .struct => "struct"
  | .object => "object"

def ofName? (s : String) : Option Category :=
  all.find? fun c => c.name == s

theorem ofName?_name (c : Category) : ofName? c.name = some c := by
  cases c <;> decide

end Category

end TermRules
