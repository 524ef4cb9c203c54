import TermRules.Category
import TermRules.Constraints

/-!
Validation records: the constraints of a whole hierarchy on one value, merged. A container's
elements have a record of their own when their category differs, and the keys and values of an
object have theirs.
-/

namespace TermRules

/-- Sub-kinds that a hierarchy passes through. -/
structure Marks where
  url : Bool := false
  hexadecimal : Bool := false
  email : Bool := false
  integer : Bool := false
  timestamp : Bool := false
  set : Bool := false
  reference : Bool := false
  deriving DecidableEq, Inhabited

structure Record (β : Type) where
  category : Option Category := none
  length : Option (Interval β) := none
  regex : List String := []
  range : Option (Interval β) := none
  decimals : Option Int := none
  size : Option (Interval β) := none
  marks : Marks := {}
  target : Target := {}
  casts : List String := []
  customs : List String := []
  child : Option (Record β) := none
  keyRecord : Option (Record β) := none
  valueRecord : Option (Record β) := none

end TermRules
