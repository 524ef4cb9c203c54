import TermRules.Interval.Basic

/-!
Intervals over arbitrary values. Whatever has members can stand for an interval: the items of a
list, the characters of a text, the keys of a mapping. Flags count by being truthy, and bounds
must have an order where they are compared.
-/

namespace TermRules

/-- The members of a value, as they come when it is walked through. -/
def Value.members : Value → Except Misuse (List Value)
  | .list items => .ok items
  | .text s => .ok (s.toList.map fun c => .text (String.singleton c))
  | .mapping entries => .ok (entries.map fun (k, _) => .scalar k)
  | _ => .error .notIterable

namespace Interval

/-- Exactly four members. -/
def ofFour (v : Value) : Except Misuse (Interval Value) := do
  match ← v.members with
  | [lower, upper, lowerFlag, upperFlag] =>
      return ⟨lower, upper, lowerFlag.isTruthy, upperFlag.isTruthy⟩
  | _ => throw .wrongCount

/-- Two to four members, the flags true unless given. -/
def ofParts (v : Value) : Except Misuse (Interval Value) := do
  match ← v.members with
  | [lower, upper] => return ⟨lower, upper, true, true⟩
  | [lower, upper, lowerFlag] => return ⟨lower, upper, lowerFlag.isTruthy, true⟩
  | [lower, upper, lowerFlag, upperFlag] =>
      return ⟨lower, upper, lowerFlag.isTruthy, upperFlag.isTruthy⟩
  | _ => throw .wrongParts

def requireOrder (a b : Value) : Except Misuse Unit :=
  if (a.below? b).isSome then .ok () else .error .incomparable

def normalizeLoose (v : Value) : Except Misuse (Interval Value) := do
  let i ← ofFour v
  requireOrder i.lower i.upper
  return i.normalize

/-- The common part of two intervals in order, where their bounds can be compared. -/
def meetLoose (a b : Interval Value) : Except Misuse (Interval Value) := do
  requireOrder a.lower b.lower
  requireOrder a.upper b.upper
  return a.meet b

/-- Narrows `a` by `b`; a null `b` narrows nothing. -/
def combineLoose (a b : Value) : Except Misuse (Interval Value) := do
  let a ← normalizeLoose a
  if b.isNull then return a
  meetLoose a (← normalizeLoose b)

/-- Takes a value into the interval met so far; null leaves it as it is. -/
def mergeLoose (current : Option (Interval Value)) (incoming : Value) :
    Except Misuse (Option (Interval Value)) :=
  if incoming.isNull then .ok current
  else match current with
    | none => (normalizeLoose incoming).map some
    | some i => do
        requireOrder i.lower i.upper
        some <$> meetLoose i.normalize (← normalizeLoose incoming)

end Interval

end TermRules
