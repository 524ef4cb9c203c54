import TermRules.Text.Blank
import TermRules.Text.Width

/-!
Text laid out in lines of a limited width. Lines are broken between words; a word wider than the
limit is cut into pieces. Blanks belong to the word in front of them, and where they stick out of
the line they are dropped.
-/

namespace TermRules.Text

/-- The words of a text with the blanks around them, the first of them begun with `word`. Blanks
alone are no word. -/
def wordsFrom (word : List Char) : List Char → List (List Char)
  | [] => if word.all isBlank then [] else [word]
  | c :: cs =>
      if !isBlank c && word.getLast?.any isBlank && !word.all isBlank then
        word :: wordsFrom [c] cs
      else wordsFrom (word ++ [c]) cs

def words (cs : List Char) : List (List Char) :=
  wordsFrom [] cs

def trimEnd (cs : List Char) : List Char :=
  (cs.reverse.dropWhile isBlank).reverse

/-- Pieces no wider than `limit`, unless a single character is. `line` is the piece begun. -/
def cut (limit : Nat) (line : List Char) : List Char → List (List Char)
  | [] => [line]
  | c :: cs =>
      if limit < columns line + charWidth c then line :: cut limit [c] cs
      else cut limit (line ++ [c]) cs

/-- Puts a word behind lines that are held last first. -/
def addWord (limit : Nat) (lines : List (List Char)) (word : List Char) : List (List Char) :=
  let size := columns (trimEnd word)
  match lines with
  | [] => if size ≤ limit then [word] else (cut limit [] word).reverse
  | line :: above =>
      if columns line + size ≤ limit then (line ++ word) :: above
      else if size ≤ limit then word :: line :: above
      else (cut limit [] word).reverse ++ line :: above

/-- A line without the blanks at its end that go beyond the limit. -/
def trimOverhang (limit : Nat) (line : List Char) : List Char :=
  line.take (max limit (trimEnd line).length)

/-- Breaks a single line of text. -/
def wrapLine (limit : Nat) (cs : List Char) : List (List Char) :=
  match ((words cs).foldl (addWord limit) []).reverse with
  | [] => [trimOverhang limit cs]
  | lines => lines.map (trimOverhang limit)

/-- Spaces up to the next multiple of eight columns in place of each tab. `column` is where the
text begins. -/
def expandTabs (column : Nat) : List Char → List Char
  | [] => []
  | '\t' :: cs =>
      let spaces := 8 - column % 8
      List.replicate spaces ' ' ++ expandTabs (column + spaces) cs
  | c :: cs => c :: expandTabs (column + charWidth c) cs

/-- Controls that a terminal does not get to see: bell, backspace, vertical tab, form feed and
carriage return. -/
def isHiddenControl (c : Char) : Bool :=
  [7, 8, 11, 12, 13].contains c.toNat

def spaces (n : Nat) : List Char :=
  List.replicate n ' '

def padRight (width : Nat) (cs : List Char) : List Char :=
  cs ++ spaces (width - columns cs)

def padLeft (width : Nat) (cs : List Char) : List Char :=
  spaces (width - columns cs) ++ cs

/-- In the middle of the width; of the spaces left over, half and no more go in front. -/
def center (width : Nat) (cs : List Char) : List Char :=
  let cs := trimEnd cs
  padRight width (spaces ((width - columns cs) / 2) ++ cs)

end TermRules.Text
