/-!
Paths of files: a root and the parts between slashes. Empty parts and single points do not count;
double points stay until a path is resolved.
-/

namespace TermRules

structure Path where
  /-- A slash for an absolute path, nothing for a relative one. Exactly two slashes are kept. -/
  root : String := ""
  parts : List String := []
  deriving DecidableEq, Inhabited

namespace Path

def rootOf : List Char → String
  | '/' :: '/' :: '/' :: _ => "/"
  | '/' :: '/' :: _ => "//"
  | '/' :: _ => "/"
  | _ => ""

def ofText (s : String) : Path :=
  ⟨rootOf s.toList,
    ((s.toList.splitOn '/').map String.ofList).filter fun p => !(p == "" || p == ".")⟩

def text (p : Path) : String :=
  if p.root == "" && p.parts.isEmpty then "." else p.root ++ "/".intercalate p.parts

def isAbsolute (p : Path) : Bool :=
  p.root != ""

def hasNull (p : Path) : Bool :=
  p.text.toList.contains '\x00'

/-- The directory that holds the path's last part. -/
def parent (p : Path) : Path :=
  { p with parts := p.parts.dropLast }

/-- `q` as seen from the directory `p`. -/
def join (p q : Path) : Path :=
  if q.isAbsolute then q else { p with parts := p.parts ++ q.parts }

/-- Parts with each pair of double points and the part in front of it taken out. -/
def cancel (parts : List String) : List String :=
  (parts.foldl (fun stack p => if p == ".." then stack.drop 1 else p :: stack) []).reverse

/-- The absolute path of `p` as seen from the directory `start`, without double points. -/
def resolve (p start : Path) : Path :=
  ⟨"/", cancel (start.join p).parts⟩

end Path

end TermRules
