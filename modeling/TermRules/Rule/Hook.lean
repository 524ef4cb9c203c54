import TermRules.Failure
import TermRules.Library
import TermRules.Number.Reading
import TermRules.Text.Case
import TermRules.Text.Recognised

/-!
Hooks that a rule runs before and after its directives. Casts bring a value into the form that the
directives expect; custom hooks have the last word. A rule names its hooks by the keys of terms
such as `:rule:castNumber`, of which only the part behind the last colon counts.
-/

namespace TermRules

/-- The part of a name behind its last colon. -/
def localName (name : String) : String :=
  String.ofList (name.toList.reverse.takeWhile (· != ':')).reverse

inductive Cast where
  | string
  | number
  | boolean
  | hexadecimal
  deriving DecidableEq, Repr

namespace Cast

/-- A value in words; the truth values in lower case. -/
def toText : Value → String
  | .bool b => if b then "true" else "false"
  | v => v.display

def toNumber (v : Value) (path : String) : Except Failure Value :=
  let refused := .error (.rejected .uncastableNumber path v)
  match v with
  | .int _ | .double _ => .ok v
  | .text s => match Reading.number? s with
    | some n => .ok (.ofNumber n)
    | none => refused
  | _ => refused

def falseWords : List String :=
  ["", "0", "false", "no", "off"]

/-- A text is true unless it is blank or says otherwise. -/
def isTrue : Value → Bool
  | .text s => !falseWords.contains (Text.lower (String.ofList (Text.trim s.toList)))
  | v => v.isTruthy

def apply (c : Cast) (v : Value) (path : String) : Except Failure Value :=
  match c with
  | .string => .ok (.text (toText v))
  | .number => toNumber v path
  | .boolean => .ok (.bool (isTrue v))
  | .hexadecimal => .ok (.text (Text.lower (toText v)))

end Cast

inductive Custom where
  | address
  | hexadecimal
  | email
  | integer
  | timestamp
  deriving DecidableEq, Repr

namespace Custom

/-- Accepts a value that satisfies `accepted`, and rejects any other for the reason. -/
def demand (accepted : Bool) (reason : Reason) (v : Value) (path : String) :
    Except Failure Value :=
  if accepted then .ok v else .error (.rejected reason path v)

def acceptAddress [Library] (v : Value) (path : String) : Except Failure Value :=
  match Library.address v.display with
  | .error fault => .error (.misuse (.address fault))
  | .ok a => demand a.isComplete .refusedAddress v path

/-- A whole double becomes a whole number. -/
def acceptInteger (v : Value) (path : String) : Except Failure Value :=
  match v with
  | .double d => match d.toInt? with
    | some n => .ok (.int n)
    | none => .error (.rejected .refusedInteger path v)
  | _ => .ok v

def acceptTimestamp (v : Value) (path : String) : Except Failure Value :=
  match v.below? (.int 0) with
  | none => .error (.misuse .incomparable)
  | some isNegative => demand (!isNegative) .negativeTimestamp v path

def apply [Library] (c : Custom) (v : Value) (path : String) : Except Failure Value :=
  match c with
  | .address => acceptAddress v path
  | .hexadecimal => demand (Text.isHexadecimal v.display) .refusedHexadecimal v path
  | .email => demand (Text.isEmail v.display) .refusedEmail v path
  | .integer => acceptInteger v path
  | .timestamp => acceptTimestamp v path

end Custom

/-- The hooks in use, by local name. -/
structure Hooks where
  casts : List (String × Cast)
  customs : List (String × Custom)

namespace Hooks

def standard : Hooks where
  casts := [("castString", .string), ("castNumber", .number), ("castBoolean", .boolean),
    ("castHexadecimal", .hexadecimal)]
  customs := [("customUrl", .address), ("customHex", .hexadecimal), ("customEmail", .email),
    ("customInt", .integer), ("customTimeStamp", .timestamp)]

variable {α : Type}

def lookup (table : List (String × α)) (name : String) : Except Failure α :=
  match table.find? fun e => e.1 == localName name with
  | some e => .ok e.2
  | none => .error (.unknownHook name)

/-- Binds the local part of a name, in place of what it was bound to. -/
def rebind (table : List (String × α)) (name : String) (hook : α) : List (String × α) :=
  (localName name, hook) :: table.filter fun e => e.1 != localName name

/-- The bound names in ascending order. -/
def names (table : List (String × α)) : List String :=
  (table.map (·.1)).mergeSort fun a b => decide (a ≤ b)

/-- Binds `name` to the cast that `existing` names. -/
def registerCast (h : Hooks) (name existing : String) : Except Failure Hooks := do
  return { h with casts := rebind h.casts name (← lookup h.casts existing) }

/-- Binds `name` to the custom hook that `existing` names. -/
def registerCustom (h : Hooks) (name existing : String) : Except Failure Hooks := do
  return { h with customs := rebind h.customs name (← lookup h.customs existing) }

end Hooks

end TermRules
