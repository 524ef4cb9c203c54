import TermRules.Text.Wrap

/-!
Tables as text: a title above a frame, a header set off by heavy lines, and rows of cells. A column
is as wide as the widest text in it, with a blank on both sides.
-/

namespace TermRules

inductive Alignment where
  | left
  | right
  deriving DecidableEq, Repr

structure Column where
  header : String
  alignment : Alignment := .left

structure Table where
  title : String
  columns : List Column
  rows : List (List String)

namespace Table

/-- The lines of a text as a terminal shows them. -/
def shownLines (s : String) : List (List Char) :=
  ((s.toList.filter (!Text.isHiddenControl ·)).splitOn '\n').map (Text.expandTabs 0)

def cellWidth (s : String) : Nat :=
  ((shownLines s).map Text.columns).foldl max 0

/-- The width of each column. -/
def widths (t : Table) : List Nat :=
  t.rows.foldl (fun ws row => List.zipWith (fun w cell => max w (cellWidth cell)) ws row)
    (t.columns.map fun c => cellWidth c.header)

/-- Characters of a line of the frame: its left end, its filling, its crossings, its right end. -/
structure Frame where
  left : String
  filling : Char
  crossing : String
  right : String

def Frame.line (f : Frame) (widths : List Nat) : String :=
  f.left ++ f.crossing.intercalate (widths.map fun w => "".pushn f.filling (w + 2)) ++ f.right

def topFrame : Frame := ⟨"┏", '━', "┳", "┓"⟩

def headerFrame : Frame := ⟨"┡", '━', "╇", "┩"⟩

def bottomFrame : Frame := ⟨"└", '─', "┴", "┘"⟩

def align : Alignment → Nat → List Char → List Char
  | .left => Text.padRight
  | .right => Text.padLeft

/-- The lines of a row between the uprights of the frame. -/
def rowLines (upright : String) (alignments : List Alignment) (widths : List Nat)
    (cells : List String) : List String :=
  let cells := cells.map shownLines
  let height := (cells.map List.length).foldl max 0
  (List.range height).map fun k =>
    let parts := List.zipWith (fun (a, w) lines => align a w ((lines[k]?).getD []))
      (alignments.zip widths) cells
    upright ++ " " ++ (" " ++ upright ++ " ").intercalate (parts.map String.ofList) ++ " " ++
      upright

/-- The title in the middle above the frame, broken if it is wider. -/
def titleLines (t : Table) (width : Nat) : List String :=
  (shownLines t.title).flatMap fun line =>
    (Text.wrapLine width line).map fun piece => String.ofList (Text.center width piece)

def lines (t : Table) : List String :=
  let ws := t.widths
  let alignments := t.columns.map (·.alignment)
  let width := ws.foldl (fun total w => total + w + 3) 1
  t.titleLines width ++ [topFrame.line ws] ++
    rowLines "┃" alignments ws (t.columns.map (·.header)) ++ [headerFrame.line ws] ++
    t.rows.flatMap (rowLines "│" alignments ws) ++ [bottomFrame.line ws]

end Table

end TermRules
