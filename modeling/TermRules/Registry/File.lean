import TermRules.Files.Disk
import TermRules.Registry.Standard

/-!
Registries from files of terms. A file holds a list of terms in JSON, or a mapping that has such a
list under `terms`; its terms replace standard ones of the same key.
-/

namespace TermRules

namespace Registry

/-- The terms that a document holds, not read yet. -/
def documentTerms (document : String) (path : String) : Except Failure (List Value) :=
  match Json.parse document with
  | .error (.tooManyDigits digits) => .error (.numberTooLong digits)
  | .error problem => .error (.termsNotJson problem path)
  | .ok (.list items) => .ok items
  | .ok v => match v.get? "terms" with
    | some (.list items) => .ok items
    | _ => .error (.termsNotList path)

/-- Adds the terms of a file, each of which has to be a mapping. -/
def addEntries [Readable Term] (r : Registry) (path : String) : List Value → Except Failure Registry
  | [] => .ok r
  | .mapping entries :: vs => do
      addEntries (← r.addValue (.mapping entries)).1 path vs
  | _ :: _ => .error (.termNotMapping path)

/-- The registry that the contents of a file give. -/
def ofBytes [Readable Term] (base : Registry) (path : String) (bytes : List UInt8) :
    Except Failure Registry := do
  let document ← (Look.document bytes).mapError .undecodable
  base.addEntries path (← documentTerms document path)

/-- The registry that what stands at a path gives. -/
def ofLook [Readable Term] (base : Registry) (path : String) (look : Look) :
    Except Failure Registry :=
  match look.bytes with
  | .error problem => .error (.termsUnreadable problem.message path)
  | .ok bytes => base.ofBytes path bytes

/-- Reads a file of terms into a registry, beside the standard terms if these are included. -/
def fromFile {m : Type → Type} [Monad m] [Readable Term] (disk : Disk m) (path : Path)
    (includeStandard : Bool) (maxDepth : Int) : m (Except Failure Registry) := do
  let base := if includeStandard then standard maxDepth else empty maxDepth
  if path.hasNull then return .error (.misuse .nullInPath)
  else return ofLook base path.text (← disk.look path)

end Registry

end TermRules
