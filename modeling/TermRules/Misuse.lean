import TermRules.Text.Address

/-!
Uses of a value that its kind does not allow. They are faults of whoever wrote the rule, the
interval or the call, and not verdicts on a checked value.
-/

namespace TermRules

inductive Misuse where
  /-- Two values without a common order. -/
  | incomparable
  /-- A number was needed. -/
  | notNumber
  /-- A text was needed. -/
  | notText
  /-- A value with a length was needed. -/
  | unsized
  /-- A value with members was needed. -/
  | notIterable
  /-- An interval was not made of four parts. -/
  | wrongCount
  /-- An interval was made of fewer than two or more than four parts. -/
  | wrongParts
  /-- A name outside its vocabulary. -/
  | unknownName
  /-- A field was asked of something that has none. -/
  | noFields
  /-- A whole number beyond the range of doubles. -/
  | beyondDouble
  /-- A decimal beyond the largest exponent. -/
  | beyondDecimal
  /-- A text that cannot be taken apart as an address. -/
  | address (fault : Text.Address.Fault)
  /-- A path with a null character, which no file has. -/
  | nullInPath
  /-- A pattern that repeats more often than can be counted. -/
  | repetitionTooLarge
  /-- A pattern under two flags that exclude each other. -/
  | clashingFlags
  /-- A pattern that names a code point beyond any character. -/
  | codePointTooLarge
  deriving DecidableEq, Repr

end TermRules
