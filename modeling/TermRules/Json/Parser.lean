import TermRules.Number.Reading
import TermRules.Value.Basic

/-!
JSON text read into values. Beyond the standard, NaN and the two infinities are numbers; of equal
names in an object the last value counts, at the place of the first. A refusal names what was
expected and where, counting characters from zero and lines and columns from one.

A lone surrogate escape has no character; it reads as U+FFFD.
-/

namespace TermRules.Json

inductive Cause where
  | expectedValue
  | expectedName
  | expectedColon
  | expectedComma
  | unterminatedText
  | controlCharacter
  | badEscape
  | badCodeEscape
  | extraData
  | byteOrderMark
  deriving DecidableEq, Repr

/-- What is wrong, and at which character. -/
inductive Problem where
  | malformed (cause : Cause) (offset : Nat)
  | tooManyDigits (count : Nat)
  deriving DecidableEq, Repr

def Cause.message : Cause → String
  | .expectedValue => "Expecting value"
  | .expectedName => "Expecting property name enclosed in double quotes"
  | .expectedColon => "Expecting ':' delimiter"
  | .expectedComma => "Expecting ',' delimiter"
  | .unterminatedText => "Unterminated string starting at"
  | .controlCharacter => "Invalid control character at"
  | .badEscape => "Invalid \\escape"
  | .badCodeEscape => "Invalid \\uXXXX escape"
  | .extraData => "Extra data"
  | .byteOrderMark => "Unexpected UTF-8 BOM (decode using utf-8-sig)"

/-- A problem with the line and column it falls on. -/
inductive Refusal where
  | malformed (cause : Cause) (line column offset : Nat)
  | tooManyDigits (count : Nat)
  deriving DecidableEq, Repr

def Problem.locate (document : List Char) : Problem → Refusal
  | .tooManyDigits count => .tooManyDigits count
  | .malformed cause offset =>
      let before := document.take offset
      let column := (before.reverse.takeWhile (· != '\n')).length + 1
      .malformed cause (before.count '\n' + 1) column offset

def Refusal.message : Refusal → String
  | .malformed cause line column offset =>
      s!"{cause.message}: line {line} column {column} (char {offset})"
  | .tooManyDigits count =>
      s!"Exceeds the limit ({digitLimit} digits) for integer string conversion: value has " ++
        s!"{count} digits; use sys.set_int_max_str_digits() to increase the limit"

/-- The rest of the document and the offset of its first character. -/
structure Cursor where
  offset : Nat
  rest : List Char

def isSpace (c : Char) : Bool :=
  c == ' ' || c == '\t' || c == '\n' || c == '\r'

namespace Cursor

def advance (c : Cursor) (n : Nat) : Cursor :=
  ⟨c.offset + n, c.rest.drop n⟩

def skipSpace (c : Cursor) : Cursor :=
  c.advance (c.rest.takeWhile isSpace).length

def fail {α : Type} (c : Cursor) (cause : Cause) : Except Problem α :=
  .error (.malformed cause c.offset)

end Cursor

def hexDigit? (c : Char) : Option Nat :=
  if '0' ≤ c ∧ c ≤ '9' then some (c.toNat - '0'.toNat)
  else if 'a' ≤ c ∧ c ≤ 'f' then some (c.toNat - 'a'.toNat + 10)
  else if 'A' ≤ c ∧ c ≤ 'F' then some (c.toNat - 'A'.toNat + 10)
  else none

/-- The code that four hexadecimal digits give. -/
def hexCode? (a b c d : Char) : Option Nat := do
  return ((← hexDigit? a) * 16 + (← hexDigit? b)) * 256
    + (← hexDigit? c) * 16 + (← hexDigit? d)

def isHighSurrogate (n : Nat) : Bool :=
  0xD800 ≤ n && n ≤ 0xDBFF

def isLowSurrogate (n : Nat) : Bool :=
  0xDC00 ≤ n && n ≤ 0xDFFF

def codeChar (n : Nat) : Char :=
  if isHighSurrogate n || isLowSurrogate n then '\ufffd' else Char.ofNat n

def simpleEscape? : Char → Option Char
  | '"' => some '"'
  | '\\' => some '\\'
  | '/' => some '/'
  | 'b' => some '\x08'
  | 'f' => some '\x0c'
  | 'n' => some '\n'
  | 'r' => some '\r'
  | 't' => some '\t'
  | _ => none

/-- The character codes of a text up to its closing quote, surrogates still apart. `start` is the
offset of the opening quote, `here` that of the first character of the list. A code escape needs a
further character after it. -/
def textCodes (start here : Nat) : List Char → Except Problem (List Nat × Cursor)
  | [] => .error (.malformed .unterminatedText start)
  | '"' :: rest => .ok ([], ⟨here + 1, rest⟩)
  | '\\' :: 'u' :: a :: b :: c :: d :: rest =>
      match if rest.isEmpty then none else hexCode? a b c d with
      | none => .error (.malformed .badCodeEscape (here + 1))
      | some code => (textCodes start (here + 6) rest).map fun (codes, r) => (code :: codes, r)
  | '\\' :: 'u' :: _ => .error (.malformed .badCodeEscape (here + 1))
  | '\\' :: e :: rest =>
      match simpleEscape? e with
      | none => .error (.malformed .badEscape here)
      | some c => (textCodes start (here + 2) rest).map fun (codes, r) => (c.toNat :: codes, r)
  | ['\\'] => .error (.malformed .unterminatedText start)
  | c :: rest =>
      if c.toNat < 0x20 then .error (.malformed .controlCharacter here)
      else (textCodes start (here + 1) rest).map fun (codes, r) => (c.toNat :: codes, r)

/-- The characters of the codes, where a high surrogate and a low one behind it are one. -/
def joinSurrogates : List Nat → List Char
  | high :: low :: rest =>
      if isHighSurrogate high && isLowSurrogate low then
        Char.ofNat (0x10000 + (high - 0xD800) * 0x400 + (low - 0xDC00)) :: joinSurrogates rest
      else codeChar high :: joinSurrogates (low :: rest)
  | [code] => [codeChar code]
  | [] => []

/-- The text that opens at the cursor's quote. -/
def textAt (c : Cursor) : Except Problem (String × Cursor) :=
  (textCodes c.offset (c.offset + 1) (c.rest.drop 1)).map fun (codes, r) =>
    (String.ofList (joinSurrogates codes), r)

/-- The leading ASCII digits. -/
def digitsOf (cs : List Char) : List Char :=
  cs.takeWhile Text.isAsciiDigit

/-- Length of a fraction: a point with a digit after it. -/
def fractionLength : List Char → Nat
  | '.' :: rest => match digitsOf rest with
    | [] => 0
    | ds => ds.length + 1
  | _ => 0

/-- Length of an exponent with at least one digit. -/
def exponentLength : List Char → Nat
  | e :: rest =>
      if e = 'e' ∨ e = 'E' then
        let sign := match rest with
          | s :: _ => if s = '+' ∨ s = '-' then 1 else 0
          | [] => 0
        match digitsOf (rest.drop sign) with
        | [] => 0
        | ds => 1 + sign + ds.length
      else 0
  | [] => 0

/-- The number at the cursor: a whole number, or a double if it has a fraction or an exponent. -/
def numberAt (c : Cursor) : Except Problem (Value × Cursor) :=
  let sign := if c.rest.head? = some '-' then 1 else 0
  let body := c.rest.drop sign
  let whole := match body with
    | '0' :: _ => 1
    | _ => (digitsOf body).length
  if whole = 0 then c.fail .expectedValue
  else
    let fraction := fractionLength (body.drop whole)
    let exponent := exponentLength (body.drop (whole + fraction))
    let next := c.advance (sign + whole + fraction + exponent)
    if fraction + exponent = 0 then
      if digitLimit < whole then .error (.tooManyDigits whole)
      else
        let n := Text.ofDigits ((body.take whole).filterMap Text.asciiDigit?)
        .ok (.int (if sign = 1 then -(n : Int) else n), next)
    else
      let spelling := c.rest.take (sign + whole + fraction + exponent)
      .ok (.double ((Reading.double? spelling).getD .nan), next)

/-- The constants, by spelling. -/
def constants : List (String × Value) :=
  [("null", .null), ("true", .bool true), ("false", .bool false), ("NaN", .double .nan),
   ("Infinity", .double (.infinite false)), ("-Infinity", .double (.infinite true))]

def constantAt? (c : Cursor) : Option (Value × Cursor) :=
  constants.findSome? fun (name, v) =>
    if name.toList.isPrefixOf c.rest then some (v, c.advance name.length) else none

mutual

/-- The value at the cursor. Every nested value starts at least one character further on, so the
length of the document bounds the depth. -/
def valueAt : Nat → Cursor → Except Problem (Value × Cursor)
  | 0, c => c.fail .expectedValue
  | depth + 1, c =>
      match c.rest with
      | '"' :: _ => (textAt c).map fun (s, r) => (.text s, r)
      | '\x7b' :: _ =>
          let inner := (c.advance 1).skipSpace
          if inner.rest.head? = some '\x7d' then .ok (.mapping [], inner.advance 1)
          else membersAt depth [] inner
      | '[' :: _ =>
          let inner := (c.advance 1).skipSpace
          if inner.rest.head? = some ']' then .ok (.list [], inner.advance 1)
          else itemsAt depth [] inner
      | _ =>
          match constantAt? c with
          | some found => .ok found
          | none => numberAt c

/-- The items of a list from the cursor to its closing bracket, after those in `done`. -/
def itemsAt : Nat → List Value → Cursor → Except Problem (Value × Cursor)
  | 0, _, c => c.fail .expectedValue
  | depth + 1, done, c => do
      let (v, next) ← valueAt depth c
      let next := next.skipSpace
      match next.rest.head? with
      | some ']' => return (.list (v :: done).reverse, next.advance 1)
      | some ',' => itemsAt depth (v :: done) (next.advance 1).skipSpace
      | _ => next.fail .expectedComma

/-- The members of an object from the cursor to its closing brace, after those in `done`. -/
def membersAt : Nat → Entries → Cursor → Except Problem (Value × Cursor)
  | 0, _, c => c.fail .expectedValue
  | depth + 1, done, c => do
      if c.rest.head? ≠ some '"' then c.fail .expectedName
      else
        let (name, afterName) ← textAt c
        let colon := afterName.skipSpace
        if colon.rest.head? ≠ some ':' then colon.fail .expectedColon
        else
          let (v, next) ← valueAt depth (colon.advance 1).skipSpace
          let done := done.insert (.text name) v
          let next := next.skipSpace
          match next.rest.head? with
          | some '\x7d' => return (.mapping done, next.advance 1)
          | some ',' => membersAt depth done (next.advance 1).skipSpace
          | _ => next.fail .expectedComma

end

def parseChars (document : List Char) : Except Problem Value := do
  if document.head? = some '\ufeff' then .error (.malformed .byteOrderMark 0)
  else
    let (v, next) ← valueAt (2 * document.length + 2) (Cursor.mk 0 document).skipSpace
    let last := next.skipSpace
    if last.rest.isEmpty then return v else last.fail .extraData

/-- The value that a document spells. -/
def parse (document : String) : Except Refusal Value :=
  (parseChars document.toList).mapError (Problem.locate document.toList)

end TermRules.Json
