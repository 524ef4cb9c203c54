import TermRules.Pattern.Syntax

/-!
How many characters a pattern can span. Counts are capped where a repetition count would be, so
that unbounded repetition has the greatest count of all.
-/

namespace TermRules.Pattern

/-- Repetition counts from here on cannot be told from unbounded repetition. -/
def countLimit : Nat := 4294967295

namespace Extent

def zero : Extent := ⟨0, 0⟩

def one : Extent := ⟨1, 1⟩

def add (a b : Extent) : Extent :=
  ⟨a.least + b.least, a.most + b.most⟩

def either (a b : Extent) : Extent :=
  ⟨min a.least b.least, max a.most b.most⟩

def times (a : Extent) (low : Nat) (high : Option Nat) : Extent :=
  ⟨a.least * low, a.most * high.getD countLimit⟩

def cap (a : Extent) : Extent :=
  ⟨min a.least (countLimit - 1), min a.most countLimit⟩

end Extent

mutual

/-- The extent of a node, where `groups` holds those of the groups that are complete. -/
def extent (groups : List (Option Extent)) : Node → Extent
  | .literal _ | .any | .set _ _ => .one
  | .anchor _ | .ahead _ _ | .behind _ _ _ => .zero
  | .backReference n => (groups.getD n none).getD .zero
  | .group _ _ _ body | .atomic body => extents groups body
  | .conditional _ yes no => (extents groups yes).either (extents groups no)
  | .repetition _ low high body => (extents groups body).times low high
  | .alternatives choices => widest groups choices

def sumExtents (groups : List (Option Extent)) : List Node → Extent
  | [] => .zero
  | n :: ns => (extent groups n).add (sumExtents groups ns)

/-- The extent of nodes in a row. -/
def extents (groups : List (Option Extent)) : List Node → Extent
  | [] => .zero
  | n :: ns => ((extent groups n).add (sumExtents groups ns)).cap

def widest (groups : List (Option Extent)) : List (List Node) → Extent
  | [] => .zero
  | [choice] => extents groups choice
  | choice :: choices => (extents groups choice).either (widest groups choices)

end

end TermRules.Pattern
