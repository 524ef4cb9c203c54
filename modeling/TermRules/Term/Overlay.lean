import TermRules.Failure
import TermRules.Options
import TermRules.Vocabulary

/-!
Options laid over a hierarchy. Three axes are independent: the constraints of a scalar go to the
last term that is no list, the size to the last list, the target to the last reference. An axis
without such a term is skipped, and nothing but the constraints of these terms changes.
-/

namespace TermRules

inductive Axis where
  | scalar
  | list
  | reference
  deriving DecidableEq, Repr

namespace Axis

def ofName? : String → Option Axis
  | "scalar" => some .scalar
  | "list" => some .list
  | "reference" => some .reference
  | _ => none

def selects (a : Axis) (t : Term) : Bool :=
  match a with
  | .scalar => !t.isList
  | .list => t.isList
  | .reference => Vocabulary.isReference t.key

def overlay (a : Axis) (above : Constraints) (t : Term) : Term :=
  match a with
  | .scalar => { t with constraints := t.constraints.overlayScalar above }
  | .list => { t with constraints := t.constraints.overlayList above }
  | .reference => { t with constraints := t.constraints.overlayReference above }

end Axis

namespace Hierarchy

variable {α : Type}

/-- The position of the last element that satisfies `p`. -/
def lastIndex? (p : α → Bool) : List α → Option Nat
  | [] => none
  | x :: xs => match lastIndex? p xs with
    | some i => some (i + 1)
    | none => if p x then some 0 else none

/-- The list with its last element that satisfies `p` changed by `f`. -/
def updateLast (p : α → Bool) (f : α → α) : List α → List α
  | [] => []
  | x :: xs => if xs.any p then x :: updateLast p f xs else (if p x then f x else x) :: xs

/-- The position of the term that takes the options of the axis. -/
def touched? (h : Hierarchy) (a : Axis) : Option Nat :=
  lastIndex? a.selects h

def injectAxis (a : Axis) (c : Constraints) (h : Hierarchy) : Hierarchy :=
  updateLast a.selects (a.overlay c) h

/-- Lays the constraints over the hierarchy along all three axes. -/
def inject (c : Constraints) (h : Hierarchy) : Hierarchy :=
  injectAxis .reference c (injectAxis .list c (injectAxis .scalar c h))

/-- Lays options over the hierarchy that have not been read yet. An empty hierarchy, or null for
options, asks for no reading. -/
def injectValue [Readable Options] (options : Value) (h : Hierarchy) : Except Failure Hierarchy :=
  if options.isNull || h.isEmpty then .ok h
  else match options with
    | .mapping _ => match (options.read : Gathered Options).toExcept with
      | .ok o => .ok (inject o.constraints h)
      | .error fields => .error (.unfitOptions fields)
    | _ => .error (.misuse .noFields)

end Hierarchy

end TermRules
