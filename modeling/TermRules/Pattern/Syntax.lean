/-!
Regular expressions as trees. Characters stand for themselves by their code points; groups may
switch flags for their inside.
-/

namespace TermRules.Pattern

/-- What can be switched on or off. `unicode` only ever undoes `ascii`. -/
structure Flags where
  ignoreCase : Bool := false
  multiline : Bool := false
  dotAll : Bool := false
  verbose : Bool := false
  ascii : Bool := false
  unicode : Bool := false
  template : Bool := false
  deriving DecidableEq, Inhabited

namespace Flags

/-- The union of two sets of flags. -/
def or (a b : Flags) : Flags :=
  ⟨a.ignoreCase || b.ignoreCase, a.multiline || b.multiline, a.dotAll || b.dotAll,
    a.verbose || b.verbose, a.ascii || b.ascii, a.unicode || b.unicode, a.template || b.template⟩

def meets (a b : Flags) : Bool :=
  a.ignoreCase && b.ignoreCase || a.multiline && b.multiline || a.dotAll && b.dotAll ||
    a.verbose && b.verbose || a.ascii && b.ascii || a.unicode && b.unicode ||
    a.template && b.template

def isEmpty (a : Flags) : Bool :=
  !a.meets a

/-- The flags in force inside a group that switches `on` and `off`. -/
def switch (a on off : Flags) : Flags :=
  ⟨(a.ignoreCase || on.ignoreCase) && !off.ignoreCase,
    (a.multiline || on.multiline) && !off.multiline,
    (a.dotAll || on.dotAll) && !off.dotAll, (a.verbose || on.verbose) && !off.verbose,
    if on.ascii || on.unicode then on.ascii else a.ascii,
    if on.ascii || on.unicode then on.unicode else a.unicode, a.template⟩

end Flags

inductive Anchor where
  | lineStart
  | lineEnd
  | textStart
  | textEnd
  | boundary
  | noBoundary
  deriving DecidableEq, Repr

inductive Family where
  | digit
  | blank
  | word
  deriving DecidableEq, Repr

inductive Member where
  | code (n : Nat)
  | range (low high : Nat)
  | family (f : Family) (negated : Bool)
  deriving DecidableEq

inductive Greed where
  | greedy
  | lazy
  | possessive
  deriving DecidableEq, Repr

/-- How many characters a part can span. -/
structure Extent where
  least : Nat
  most : Nat
  deriving DecidableEq

inductive Node where
  | literal (code : Nat)
  | any
  | set (negated : Bool) (members : List Member)
  | anchor (a : Anchor)
  | backReference (group : Nat)
  | group (number : Option Nat) (on off : Flags) (body : List Node)
  | atomic (body : List Node)
  | ahead (negated : Bool) (body : List Node)
  | behind (negated : Bool) (extent : Extent) (body : List Node)
  | conditional (group : Nat) (yes no : List Node)
  | repetition (greed : Greed) (low : Nat) (high : Option Nat) (body : List Node)
  | alternatives (choices : List (List Node))

/-- A well-formed pattern with its global flags. -/
structure Regex where
  flags : Flags
  body : List Node

end TermRules.Pattern
