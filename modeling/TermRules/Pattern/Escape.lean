import TermRules.Library
import TermRules.Pattern.Source
import TermRules.Text.Digit
import TermRules.Text.Recognised

/-!
Escapes: control characters, families of characters, code points in octal or hexadecimal, anchors
and references to groups. The same letter may mean different things inside a set and outside.
-/

namespace TermRules.Pattern

def isOctalDigit (c : Char) : Bool :=
  '0' ≤ c && c ≤ '7'

def digitsValue (base : Nat) (ds : List Char) : Nat :=
  ds.foldl (fun n c =>
    n * base + (if c.isDigit then c.toNat - '0'.toNat
      else if 'a' ≤ c then c.toNat - 'a'.toNat + 10 else c.toNat - 'A'.toNat + 10)) 0

def controlCode? : Char → Option Nat
  | 'a' => some 7
  | 'b' => some 8
  | 'f' => some 12
  | 'n' => some 10
  | 'r' => some 13
  | 't' => some 9
  | 'v' => some 11
  | '\\' => some 92
  | _ => none

def family? : Char → Option Member
  | 'd' => some (.family .digit false)
  | 'D' => some (.family .digit true)
  | 's' => some (.family .blank false)
  | 'S' => some (.family .blank true)
  | 'w' => some (.family .word false)
  | 'W' => some (.family .word true)
  | _ => none

def anchor? : Char → Option Anchor
  | 'A' => some .textStart
  | 'Z' => some .textEnd
  | 'b' => some .boundary
  | 'B' => some .noBoundary
  | _ => none

namespace Read

variable [Library]

def escapeText (c : Char) (digits : List Char) : String :=
  String.ofList ('\\' :: c :: digits)

/-- A code point of exactly `count` hexadecimal digits. -/
def hexCode (c : Char) (count : Nat) : Read Nat := do
  let digits ← takeWhile Text.isHexDigit count
  if digits.length < count then
    fail (.incompleteEscape (escapeText c digits)) (2 + digits.length)
  else
    let code := digitsValue 16 digits
    if 0x7FFFFFFF < code then throw (.misuse .codePointTooLarge)
    else if 0x10FFFF < code then fail (.badEscape (escapeText c digits)) (2 + digits.length)
    else return code

/-- A character by name. -/
def namedCode : Read Nat := do
  if ← accept '\x7b' then
    let name ← upTo '\x7d' "character name"
    match Library.character? name with
    | some c => return c.toNat
    | none => fail (.unknownCharacter name) (name.length + 4)
  else fail (.missing "\x7b")

/-- The escapes that give a code point in the same way inside sets and outside. -/
def codeEscape? (c : Char) : Option (Read Nat) :=
  match c with
  | 'x' => some (hexCode 'x' 2)
  | 'u' => some (hexCode 'u' 4)
  | 'U' => some (hexCode 'U' 8)
  | 'N' => some namedCode
  | _ => none

/-- The octal code of all of `digits`, at most three, the first of them already part of the
escape. -/
def octalCode (digits : List Char) : Read Nat := do
  let code := digitsValue 8 digits
  if 0o377 < code then
    fail (.octalTooLarge (String.ofList ('\\' :: digits))) (digits.length + 1)
  else return code

/-- An escaped character that stands for itself, unless it is an ASCII letter or digit. -/
def plainEscape (c : Char) : Read Nat :=
  if c.isAlpha || c.isDigit then fail (.badEscape (escapeText c [])) 2 else return c.toNat

/-- The escape of `c` inside a set. -/
def setEscape (c : Char) : Read Member := do
  match controlCode? c, family? c, codeEscape? c with
  | some code, _, _ => return .code code
  | none, some family, _ => return family
  | none, none, some code => return .code (← code)
  | none, none, none =>
      if isOctalDigit c then
        return .code (← octalCode (c :: (← takeWhile isOctalDigit 2)))
      else return .code (← plainEscape c)

/-- The escape of a digit from 1 to 9 outside a set: three octal digits, or else a reference to a
group by one or two digits. -/
def numberEscape (c : Char) : Read Node := do
  let second ← takeWhile (·.isDigit) 1
  let third ← match second with
    | [d] => if isOctalDigit c && isOctalDigit d then takeWhile isOctalDigit 1 else pure []
    | _ => pure []
  let digits := c :: second ++ third
  if digits.length = 3 then return .literal (← octalCode digits)
  else
    let group := digitsValue 10 digits
    let s ← get
    if group < s.groups.length then
      if (s.groups.getD group none).isNone then fail .openGroup (digits.length + 1)
      else
        requireBefore group
        return .backReference group
    else fail (.noSuchGroup group) digits.length

/-- The escape of `c` outside sets. -/
def escape (c : Char) : Read Node := do
  match anchor? c, family? c, controlCode? c, codeEscape? c with
  | some a, _, _, _ => return .anchor a
  | none, some family, _, _ => return .set false [family]
  | none, none, some code, _ => return .literal code
  | none, none, none, some code => return .literal (← code)
  | none, none, none, none =>
      if c = '0' then
        return .literal (digitsValue 8 (c :: (← takeWhile isOctalDigit 2)))
      else if c.isDigit then numberEscape c
      else return .literal (← plainEscape c)

end Read

end TermRules.Pattern
