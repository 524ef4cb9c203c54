import TermRules.Pattern.Syntax
import TermRules.Text.Blank
import TermRules.Text.Case
import TermRules.Text.Digit
import TermRules.Text.Letter

/-!
Searching a text for a regular expression. A match is tried at every position in turn, and the
first way to complete it counts; earlier alternatives and longer repetitions come first unless they
are lazy. What stands behind a part of a pattern is a continuation of the attempt.

Repetition of a part that matched nothing stops, so that an attempt takes a bounded number of
rounds.
-/

namespace TermRules.Pattern

/-- A position in a text: the characters behind it, last first, and those ahead of it. -/
structure Place where
  index : Nat
  behind : List Char
  ahead : List Char

namespace Place

def start (cs : List Char) : Place :=
  ⟨0, [], cs⟩

/-- The position `n` characters back, if there are that many. -/
def back? (p : Place) : Nat → Option Place
  | 0 => some p
  | n + 1 => match p.behind with
    | [] => none
    | c :: cs => back? ⟨p.index - 1, cs, c :: p.ahead⟩ n

/-- The characters from an earlier position up to `p`. -/
def since (p earlier : Place) : List Char :=
  (p.behind.take (p.index - earlier.index)).reverse

end Place

/-- An attempt under way: where it stands and what its groups hold, the latest first. -/
structure Attempt where
  place : Place
  groups : List (Nat × List Char)

namespace Flags

/-- The lower case that counts under the flags. -/
def fold (f : Flags) (code : Nat) : Nat :=
  if !f.ignoreCase then code
  else if f.ascii then (if 0x41 ≤ code && code ≤ 0x5A then code + 0x20 else code)
  else Text.lowerCode code

/-- The codes that count as one with the folded code `code`, itself included. -/
def alike (f : Flags) (code : Nat) : List Nat :=
  if f.ascii then
    if 0x61 ≤ code && code ≤ 0x7A then [code, code - 0x20] else [code]
  else (code :: Text.cousins code).flatMap fun c => c :: Text.raisedCodes c

def sameCode (f : Flags) (a b : Nat) : Bool :=
  if !f.ignoreCase then a == b
  else if f.ascii then f.fold a == f.fold b
  else f.fold a == f.fold b || (Text.cousins (f.fold b)).contains (f.fold a)

def isWord (f : Flags) (c : Char) : Bool :=
  if f.ascii then Text.isAsciiWord c else Text.isWord c

def isAsciiBlank (c : Char) : Bool :=
  c == ' ' || (0x9 ≤ c.toNat && c.toNat ≤ 0xD)

end Flags

namespace Family

def holds (f : Flags) : Family → Char → Bool
  | .digit, c => if f.ascii then Text.isAsciiDigit c else Text.isDigit c
  | .blank, c => if f.ascii then Flags.isAsciiBlank c else Text.isBlank c
  | .word, c => f.isWord c

end Family

namespace Member

def holds (f : Flags) : Member → Char → Bool
  | .code n, c => f.sameCode c.toNat n
  | .range low high, c =>
      if f.ignoreCase then
        (f.alike (f.fold c.toNat)).any fun n => low ≤ n && n ≤ high
      else low ≤ c.toNat && c.toNat ≤ high
  | .family kind negated, c => kind.holds f c != negated

end Member

namespace Anchor

/-- Whether a word begins or ends at the place. -/
def isBoundary (f : Flags) (p : Place) : Bool :=
  p.behind.head?.any f.isWord != p.ahead.head?.any f.isWord

/-- An empty text has no place that is no boundary, nor one that is. -/
def holds (f : Flags) (p : Place) : Anchor → Bool
  | .lineStart => p.behind.isEmpty || (f.multiline && p.behind.head? == some '\n')
  | .lineEnd =>
      p.ahead.isEmpty || p.ahead == ['\n'] || (f.multiline && p.ahead.head? == some '\n')
  | .textStart => p.behind.isEmpty
  | .textEnd => p.ahead.isEmpty
  | .boundary => isBoundary f p
  | .noBoundary => !(p.behind.isEmpty && p.ahead.isEmpty) && !isBoundary f p

end Anchor

namespace Attempt

def group? (a : Attempt) (n : Nat) : Option (List Char) :=
  a.groups.lookup n

/-- Takes a character that satisfies `p`. -/
def takeChar (p : Char → Bool) (a : Attempt) : Option Attempt :=
  match a.place.ahead with
  | [] => none
  | c :: rest =>
      if p c then some { a with place := ⟨a.place.index + 1, c :: a.place.behind, rest⟩ }
      else none

/-- Takes the characters of a text. -/
def takeText (f : Flags) : List Char → Attempt → Option Attempt
  | [], a => some a
  | c :: cs, a => (a.takeChar fun d => f.fold d.toNat == f.fold c.toNat).bind (takeText f cs)

/-- Keeps what was taken since `start` as the group `n`, if there is one. -/
def keep (start : Place) (n : Option Nat) (a : Attempt) : Attempt :=
  match n with
  | none => a
  | some n => { a with groups := (n, a.place.since start) :: a.groups }

end Attempt

/-- How an attempt goes on. -/
abbrev Continuation := Attempt → Option Attempt

/-- A part of a pattern: an attempt that meets it goes on behind it. -/
abbrev Step := Attempt → Continuation → Option Attempt

namespace Step

/-- Up to `fuel` rounds of a part. `rounds` of them are over, the last optional one of which began
at `last`. -/
def greedy (step : Step) (low : Nat) (high : Option Nat) (k : Continuation) :
    Nat → Nat → Option Nat → Continuation
  | 0, _, _, a => k a
  | fuel + 1, rounds, last, a =>
      if rounds < low then step a (greedy step low high k fuel (rounds + 1) last)
      else if high.all (rounds < ·) && last != some a.place.index then
        match step a (greedy step low high k fuel (rounds + 1) (some a.place.index)) with
        | some b => some b
        | none => k a
      else k a

def lazy (step : Step) (low : Nat) (high : Option Nat) (k : Continuation) :
    Nat → Nat → Option Nat → Continuation
  | 0, _, _, a => k a
  | fuel + 1, rounds, last, a =>
      if rounds < low then step a (lazy step low high k fuel (rounds + 1) last)
      else match k a with
        | some b => some b
        | none =>
            if high.all (rounds < ·) && last != some a.place.index then
              step a (lazy step low high k fuel (rounds + 1) (some a.place.index))
            else none

/-- As many rounds as there can be, each the first way it succeeds, without a way back. -/
def possessive (step : Step) (low : Nat) (high : Option Nat) : Nat → Nat → Continuation
  | 0, _, a => some a
  | fuel + 1, rounds, a =>
      if rounds < low then (step a some).bind (possessive step low high fuel (rounds + 1))
      else if high.all (rounds < ·) then
        match step a some with
        | some b =>
            if b.place.index = a.place.index then some b
            else possessive step low high fuel (rounds + 1) b
        | none => some a
      else some a

def repeated (greed : Greed) (low : Nat) (high : Option Nat) (step : Step) : Step := fun a k =>
  let fuel := low + a.place.ahead.length + 2
  match greed with
  | .greedy => greedy step low high k fuel 0 none a
  | .lazy => lazy step low high k fuel 0 none a
  | .possessive => (possessive step low high fuel 0 a).bind k

end Step

mutual

def Node.step (f : Flags) : Node → Step
  | .literal code => fun a k => (a.takeChar fun c => f.sameCode c.toNat code).bind k
  | .any => fun a k => (a.takeChar fun c => f.dotAll || c != '\n').bind k
  | .set negated members => fun a k =>
      (a.takeChar fun c => members.any (·.holds f c) != negated).bind k
  | .anchor anchor => fun a k => if anchor.holds f a.place then k a else none
  | .backReference n => fun a k => ((a.group? n).bind fun cs => a.takeText f cs).bind k
  | .group n on off body => fun a k =>
      row (f.switch on off) body a fun b => k (b.keep a.place n)
  | .atomic body => fun a k => (row f body a some).bind k
  | .ahead negated body => fun a k =>
      match row f body a some with
      | some b => if negated then none else k { b with place := a.place }
      | none => if negated then k a else none
  | .behind negated e body => fun a k =>
      match (a.place.back? e.least).bind fun p => row f body { a with place := p } some with
      | some b => if negated then none else k { b with place := a.place }
      | none => if negated then k a else none
  | .conditional n yes no => fun a k =>
      if (a.group? n).isSome then row f yes a k else row f no a k
  | .repetition greed low high body => Step.repeated greed low high (row f body)
  | .alternatives choices => firstOf f choices

/-- Nodes in a row. -/
def row (f : Flags) : List Node → Step
  | [] => fun a k => k a
  | n :: ns => fun a k => n.step f a fun b => row f ns b k

/-- The first alternative that lets the attempt be completed. -/
def firstOf (f : Flags) : List (List Node) → Step
  | [] => fun _ _ => none
  | c :: cs => fun a k =>
      match row f c a k with
      | some b => some b
      | none => firstOf f cs a k

end

namespace Regex

/-- Whether a match begins at the place. -/
def matchesAt (r : Regex) (p : Place) : Bool :=
  (row r.flags r.body ⟨p, []⟩ some).isSome

/-- Whether a match begins at a position from `p` on, where `ahead` holds the characters there. -/
def foundFrom (r : Regex) (index : Nat) (behind : List Char) : List Char → Bool
  | [] => r.matchesAt ⟨index, behind, []⟩
  | c :: rest =>
      r.matchesAt ⟨index, behind, c :: rest⟩ || foundFrom r (index + 1) (c :: behind) rest

/-- Whether the text holds a match. -/
def isFoundIn (r : Regex) (s : String) : Bool :=
  r.foundFrom 0 [] s.toList

end Regex

end TermRules.Pattern
