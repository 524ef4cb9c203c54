import TermRules.Number.Shortest
import TermRules.Text.Quoted
import TermRules.Value.Basic

/-!
Values written as JSON text, either on one line or with one item to a line. NaN and the
infinities are written by name. Texts are written with their characters as they are, or with
everything outside ASCII given by escapes.
-/

namespace TermRules.Json

/-- The escapes of controls, the quote and the backslash. -/
def escapeChar? (c : Char) : Option (List Char) :=
  if c = '"' ∨ c = '\\' then some ['\\', c]
  else if c = '\n' then some ['\\', 'n']
  else if c = '\r' then some ['\\', 'r']
  else if c = '\t' then some ['\\', 't']
  else if c = '\x08' then some ['\\', 'b']
  else if c = '\x0c' then some ['\\', 'f']
  else if c.toNat < 0x20 then some ('\\' :: 'u' :: Text.hexDigits 4 c.toNat)
  else none

/-- A character outside ASCII by its code, or by two surrogates. -/
def codeEscape (c : Char) : List Char :=
  let n := c.toNat
  if n < 0x10000 then '\\' :: 'u' :: Text.hexDigits 4 n
  else
    let m := n - 0x10000
    '\\' :: 'u' :: Text.hexDigits 4 (0xD800 + m / 0x400) ++
      '\\' :: 'u' :: Text.hexDigits 4 (0xDC00 + m % 0x400)

def textChar (ascii : Bool) (c : Char) : List Char :=
  match escapeChar? c with
  | some cs => cs
  | none => if ascii && (c.toNat < 0x20 || 0x7E < c.toNat) then codeEscape c else [c]

def quoteText (ascii : Bool) (s : String) : String :=
  String.ofList ('"' :: s.toList.flatMap (textChar ascii) ++ ['"'])

def doubleText : Double → String
  | .nan => "NaN"
  | .infinite negative => if negative then "-Infinity" else "Infinity"
  | d => d.text

def bareText : Scalar → String
  | .null => "null"
  | .bool b => if b then "true" else "false"
  | .int n => toString n
  | .double d => doubleText d
  | .text s => s

def scalarText (ascii : Bool) : Scalar → String
  | .text s => quoteText ascii s
  | s => bareText s

/-- A name is always a text; other scalars are spelled out. -/
def nameText (ascii : Bool) (k : Scalar) : String :=
  quoteText ascii (bareText k)

mutual

/-- On one line, with a space after commas and colons. -/
def line (ascii : Bool) : Value → String
  | .scalar s => scalarText ascii s
  | .list items => "[" ++ ", ".intercalate (lineItems ascii items) ++ "]"
  | .mapping entries => "\x7b" ++ ", ".intercalate (lineEntries ascii entries) ++ "\x7d"

def lineItems (ascii : Bool) : List Value → List String
  | [] => []
  | v :: vs => line ascii v :: lineItems ascii vs

def lineEntries (ascii : Bool) : Entries → List String
  | [] => []
  | (k, v) :: es => (nameText ascii k ++ ": " ++ line ascii v) :: lineEntries ascii es

end

/-- A new line indented by two spaces for every level. -/
def newline (level : Nat) : String :=
  String.ofList ('\n' :: List.replicate (2 * level) ' ')

def block (openText closeText : String) (level : Nat) (parts : List String) : String :=
  if parts.isEmpty then openText ++ closeText
  else
    openText ++ newline (level + 1) ++ ("," ++ newline (level + 1)).intercalate parts ++
      newline level ++ closeText

mutual

/-- With one item to a line, nested items indented by two spaces more. -/
def pretty (ascii : Bool) (level : Nat) : Value → String
  | .scalar s => scalarText ascii s
  | .list items => block "[" "]" level (prettyItems ascii (level + 1) items)
  | .mapping entries => block "\x7b" "\x7d" level (prettyEntries ascii (level + 1) entries)

def prettyItems (ascii : Bool) (level : Nat) : List Value → List String
  | [] => []
  | v :: vs => pretty ascii level v :: prettyItems ascii level vs

def prettyEntries (ascii : Bool) (level : Nat) : Entries → List String
  | [] => []
  | (k, v) :: es =>
      (nameText ascii k ++ ": " ++ pretty ascii level v) :: prettyEntries ascii level es

end

end TermRules.Json
