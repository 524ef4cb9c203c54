import TermRules.Pattern.Complaint
import TermRules.Pattern.Extent

/-!
The text of a pattern as it is read: a sequence of tokens, each a character or a backslash with
the character after it. A backslash at the very end is refused as soon as it is the next token.
Along with the tokens left, reading keeps what it has met so far of flags and groups.
-/

namespace TermRules.Pattern

structure Token where
  text : List Char
  position : Nat

def tokens (position : Nat) : List Char → List Token
  | '\\' :: c :: rest => ⟨['\\', c], position⟩ :: tokens (position + 2) rest
  | c :: rest => ⟨[c], position⟩ :: tokens (position + 1) rest
  | [] => []

/-- The state of reading. Group 0 is the whole pattern; a group has an extent once it is
complete. -/
structure Source where
  tokens : List Token
  finish : Nat
  flags : Flags := {}
  groups : List (Option Extent) := [none]
  names : List (String × Nat) := []
  /-- The number of groups at the start of the look-behind being read. -/
  behind : Option Nat := none
  /-- Groups referred to by number, with the positions of the references. -/
  references : List (Nat × Nat) := []

abbrev Read := StateT Source (Except Refusal)

namespace Read

variable {α : Type}

def failAt (complaint : Complaint) (position : Nat) : Read α :=
  throw (.malformed complaint (some position))

/-- The position of the next token. -/
def here : Read Nat := do
  let s ← get
  return match s.tokens with
    | t :: _ => t.position
    | [] => s.finish

/-- Refuses the pattern at `offset` characters before the next token. -/
def fail (complaint : Complaint) (offset : Nat := 0) : Read α := do
  failAt complaint ((← here) - offset)

def peek : Read (Option (List Char)) := do
  return (← get).tokens.head?.map (·.text)

/-- Refuses a dangling backslash as the next token. -/
def requireToken : Read Unit := do
  let s ← get
  match s.tokens with
  | ⟨['\\'], _⟩ :: _ => failAt .danglingEscape (s.finish - 1)
  | _ => return

def advance : Read Unit := do
  modify fun s => { s with tokens := s.tokens.drop 1 }
  requireToken

/-- The next token, taken. -/
def next : Read (Option (List Char)) := do
  let t ← peek
  advance
  return t

/-- Takes the next token if it is the character `c`. -/
def accept (c : Char) : Read Bool := do
  if (← peek) = some [c] then
    advance
    return true
  else return false

/-- Takes at most `count` characters that satisfy `p`. -/
def takeWhile (p : Char → Bool) : Nat → Read (List Char)
  | 0 => return []
  | count + 1 => do
      match ← peek with
      | some [c] =>
          if p c then
            advance
            return c :: (← takeWhile p count)
          else return []
      | _ => return []

/-- Everything up to the character `stop`, which is taken too. What is asked for is `what`. -/
def takeUntil (stop : Char) (what : String) : Nat → List Char → Read String
  | 0, _ => fail (.missing what)
  | fuel + 1, done => do
      match ← next with
      | none =>
          if done.isEmpty then fail (.missing what)
          else fail (.unterminatedName stop) done.length
      | some text =>
          if text = [stop] then
            if done.isEmpty then fail (.missing what) 1
            else return String.ofList done
          else takeUntil stop what fuel (done ++ text)

def upTo (stop : Char) (what : String) : Read String := do
  takeUntil stop what ((← get).tokens.length + 1) []

/-- Refuses a reference to a group from within that group, or within a look-behind to a group of
that look-behind. -/
def requireBefore (group : Nat) : Read Unit := do
  let s ← get
  match s.behind with
  | none => return
  | some limit =>
      if (s.groups.getD group none).isNone then fail .openGroup
      else if limit ≤ group then fail .sameLookBehind

end Read

end TermRules.Pattern
