import TermRules.Files.Path
import TermRules.Text.Utf8

/-!
Where files are read from: a working directory, and what stands at a path. The files may be those
of a machine or a tree held in memory.
-/

namespace TermRules

/-- What stands at a path. -/
inductive Look where
  | missing
  | notDirectory
  | directory
  | file (bytes : List UInt8)
  /-- Something that the system does not let be read, for a reason that it gives with a number. -/
  | refused (number : Nat) (reason : String)
  deriving DecidableEq

structure Disk (m : Type → Type) where
  workingDirectory : m Path
  /-- What stands at a path as seen from the working directory. -/
  look : Path → m Look

/-- Why a file could not be read. -/
inductive Unreadable where
  | missing
  | notDirectory
  | directory
  | refused (number : Nat) (reason : String)
  deriving DecidableEq, Repr

namespace Unreadable

def number : Unreadable → Nat
  | .missing => 2
  | .notDirectory => 20
  | .directory => 21
  | .refused number _ => number

def message : Unreadable → String
  | .missing => "No such file or directory"
  | .notDirectory => "Not a directory"
  | .directory => "Is a directory"
  | .refused _ reason => reason

end Unreadable

namespace Look

def isThere : Look → Bool
  | .directory | .file _ | .refused _ _ => true
  | .missing | .notDirectory => false

def bytes : Look → Except Unreadable (List UInt8)
  | .missing => .error .missing
  | .notDirectory => .error .notDirectory
  | .directory => .error .directory
  | .file bytes => .ok bytes
  | .refused number reason => .error (.refused number reason)

/-- The text of a file's bytes, with its line ends unified. -/
def document (bytes : List UInt8) : Except Text.Undecodable String := do
  return String.ofList (Text.unifyLineEnds (← Text.decodeFrom 0 bytes))

end Look

/-- A tree of directories and files. -/
inductive Tree where
  | file (bytes : List UInt8)
  | directory (entries : List (String × Tree))

namespace Tree

def empty : Tree := .directory []

def child? : Tree → String → Option Tree
  | .file _, _ => none
  | .directory entries, name => entries.lookup name

/-- Walks down from the last of the directories entered, which are held last first. Double points
lead back up, and stay at the top. -/
def walk : List Tree → List String → Look
  | .file _ :: _, _ :: _ => .notDirectory
  | .file bytes :: _, [] => .file bytes
  | .directory _ :: _, [] => .directory
  | here :: above, ".." :: parts => walk (if above.isEmpty then [here] else above) parts
  | here :: above, name :: parts => match here.child? name with
    | none => .missing
    | some t => walk (t :: here :: above) parts
  | [], _ => .missing

/-- The tree under a directory that is made if it is not there. -/
def insert (t : Tree) (leaf : Tree) : List String → Tree
  | [] => match t, leaf with
    | .directory entries, .directory _ => .directory entries
    | _, _ => leaf
  | name :: parts =>
      let entries := match t with
        | .directory entries => entries
        | .file _ => []
      let below := (entries.lookup name).getD empty
      .directory ((name, below.insert leaf parts) :: entries.filter fun e => e.1 != name)

/-- A disk that holds the tree. -/
def disk (t : Tree) (workingDirectory : Path) : Disk Id where
  workingDirectory := pure workingDirectory
  look p := pure (walk [t] (workingDirectory.join p).parts)

end Tree

end TermRules
