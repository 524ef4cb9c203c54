import TermRules.Rule.Basic
import TermRules.Value.Display

/-!
Why a value is rejected, and where. A path leads from the checked value to the offending one:
`[2]` for the third item of an array, `.name` for an entry of an object.
-/

namespace TermRules

/-- How a quantity has to stand to a limit. -/
inductive Relation where
  | exactly
  | atLeast
  | atMost
  | above
  | below
  deriving DecidableEq, Repr

def Relation.phrase : Relation → String
  | .exactly => ""
  | .atLeast => "at least "
  | .atMost => "at most "
  | .above => "greater than "
  | .below => "less than "

inductive Reason where
  | missing
  | notScalar
  | wrongKind (kind : Kind)
  | count (relation : Relation) (limit : Value)
  | bound (relation : Relation) (limit : Value)
  | places (limit : Value)
  | notWhole
  | unmatched (pattern : String)
  | notHexadecimal
  | notEmail
  | repeated
  | uncastableNumber
  | refusedAddress
  | refusedHexadecimal
  | refusedEmail
  | refusedInteger
  | negativeTimestamp

namespace Reason

def kindPhrase : Kind → String
  | .any => "a value"
  | .boolean => "a boolean"
  | .string => "a string"
  | .number => "a number"
  | .array => "an array"
  | .struct | .object => "an object"

def message : Reason → String
  | .missing => "Value is required"
  | .notScalar => "Value must be a scalar"
  | .wrongKind kind => "Value must be " ++ kindPhrase kind
  | .count relation limit => "Length must be " ++ relation.phrase ++ limit.display
  | .bound relation limit => "Value must be " ++ relation.phrase ++ limit.display
  | .places limit => "Value must have at most " ++ limit.display ++ " decimal places"
  | .notWhole => "Value must be an integer"
  | .unmatched pattern => "Value must match /" ++ pattern ++ "/"
  | .notHexadecimal => "Value must be hexadecimal"
  | .notEmail => "Value must be an e-mail address"
  | .repeated => "Elements must be unique"
  | .uncastableNumber => "Value is not a number"
  | .refusedAddress => "Value is not a valid URL"
  | .refusedHexadecimal => "Value is not a hexadecimal string"
  | .refusedEmail => "Value is not a valid e-mail address"
  | .refusedInteger => "Value is not an integer"
  | .negativeTimestamp => "Time stamp cannot be negative"

end Reason

namespace Position

def item (path : String) (index : Nat) : String :=
  path ++ "[" ++ toString index ++ "]"

/-- At the start of a path an entry's key stands without a dot. -/
def entry (path : String) (key : Scalar) : String :=
  if path.isEmpty then key.display else path ++ "." ++ key.display

end Position

end TermRules
