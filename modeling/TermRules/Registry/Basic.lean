import TermRules.Failure
import TermRules.Term.Basic
import TermRules.Vocabulary

/-!
Registries of terms, in the order in which their keys were first added. A reference is a key, or an
identifier that ends in one. Resolving a reference climbs from the term along parent links to the
root of the taxonomy; a walk that never gets there shows that the term is no data type.
-/

namespace TermRules

structure Registry where
  maxDepth : Int
  terms : List Term := []

namespace Registry

/-- The term in place of one with the same key, or else at the end. -/
def place (t : Term) : List Term → List Term
  | [] => [t]
  | u :: us => if u.key = t.key then t :: us else u :: place t us

def add (r : Registry) (t : Term) : Registry :=
  { r with terms := place t r.terms }

def addAll (r : Registry) (ts : List Term) : Registry :=
  ts.foldl add r

/-- Adds a term that has not been read yet. -/
def addValue [Readable Term] (r : Registry) (v : Value) : Except Failure (Registry × Term) :=
  match v with
  | .mapping entries => match (v.read : Gathered Term).toExcept with
    | .ok t => .ok (r.add t, t)
    | .error fields =>
        .error (.unfit .term fields ((Entries.get? entries "_key").getD .null))
  | _ => .error (.misuse .noFields)

def addValues [Readable Term] (r : Registry) : List Value → Except Failure Registry
  | [] => .ok r
  | v :: vs => do addValues (← r.addValue v).1 vs

def ofKey? (r : Registry) (key : String) : Option Term :=
  r.terms.find? fun t => t.key = key

/-- What follows the first slash, if there is a slash. -/
def afterSlash? (reference : String) : Option String :=
  match reference.toList.dropWhile (· != '/') with
  | [] => none
  | _ :: rest => some (String.ofList rest)

/-- The term that a reference points to. -/
def lookup (r : Registry) (reference : String) : Option Term :=
  match r.ofKey? reference with
  | some t => some t
  | none => (afterSlash? reference).bind r.ofKey?

def contains (r : Registry) (reference : String) : Bool :=
  (r.lookup reference).isSome

/-- The chain from a term to the root, most specific first, if the walk gets there without meeting
a key in `seen` or one of its own twice. Without repetition it has at most as many terms as the
registry. -/
def climb (r : Registry) : Nat → List String → Term → Option Hierarchy
  | 0, _, _ => none
  | steps + 1, seen, t =>
      if seen.contains t.key then none
      else match t.parent with
        | none => none
        | some parent =>
            if parent = Vocabulary.root then some [t]
            else (r.lookup parent).bind fun u =>
              (climb r steps (t.key :: seen) u).map (t :: ·)

/-- The chain of a reference, most specific first. -/
def resolve (r : Registry) (reference : String) : Except Failure Hierarchy :=
  match r.lookup reference with
  | none => .error (.unknownType reference)
  | some t => match r.climb (r.terms.length + 1) [] t with
    | none => .error (.notAType reference)
    | some chain =>
        if r.maxDepth < chain.length then .error (.tooDeep reference r.maxDepth) else .ok chain

/-- The keys and categories along the chain of a reference. -/
def describe (r : Registry) (reference : String) : Except Failure (List (String × String)) := do
  return (← r.resolve reference).map fun t => (t.key, t.category)

end Registry

end TermRules
