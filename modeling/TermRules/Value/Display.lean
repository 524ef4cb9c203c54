import TermRules.Number.Shortest
import TermRules.Text.Quoted
import TermRules.Value.Basic

/-!
Values as they stand in messages. A text stands bare on its own and quoted inside a list or a
mapping; constants are spelled None, True and False.
-/

namespace TermRules

namespace Scalar

def quoted : Scalar → String
  | .null => "None"
  | .bool b => if b then "True" else "False"
  | .int n => toString n
  | .double d => d.text
  | .text s => Text.quoted s

def display : Scalar → String
  | .text s => s
  | s => s.quoted

end Scalar

namespace Value

mutual

def quoted : Value → String
  | .scalar s => s.quoted
  | .list items => "[" ++ ", ".intercalate (quotedItems items) ++ "]"
  | .mapping entries => "\x7b" ++ ", ".intercalate (quotedEntries entries) ++ "\x7d"

def quotedItems : List Value → List String
  | [] => []
  | v :: vs => v.quoted :: quotedItems vs

def quotedEntries : Entries → List String
  | [] => []
  | (k, v) :: es => (k.quoted ++ ": " ++ v.quoted) :: quotedEntries es

end

def display : Value → String
  | .scalar s => s.display
  | v => v.quoted

end Value

end TermRules
