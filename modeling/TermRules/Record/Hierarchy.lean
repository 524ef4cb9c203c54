import TermRules.Failure
import TermRules.Record.Basic
import TermRules.Term.Basic
import TermRules.Vocabulary

/-!
The record of a hierarchy. Terms are taken in from the most general to the most specific. Terms of
one category share a level; where the category changes a level opens below, for the elements of
the one above. A term that cannot be taken in stops the walk, and the terms in front of it are left
unread.
-/

namespace TermRules

namespace Record

/-- The names of `more` that are not among `names` behind them, each once. -/
def appendNew (names more : List String) : List String :=
  more.foldl (fun ns n => if ns.contains n then ns else ns ++ [n]) names

def least (a b : Option Int) : Option Int :=
  match a, b with
  | some x, some y => some (min x y)
  | some x, none => some x
  | none, y => y

def absorbText (t : Term) (r : Record Number) : Record Number :=
  { r with
    length := Interval.merge r.length t.constraints.length
    regex := r.regex ++ t.constraints.regex.getD []
    target := r.target.overlay t.constraints.target
    marks := { r.marks with
      url := r.marks.url || t.key == Vocabulary.url
      hexadecimal := r.marks.hexadecimal || t.key == Vocabulary.hex
      email := r.marks.email || t.key == Vocabulary.email
      reference := r.marks.reference || Vocabulary.isReference t.key ||
        !t.constraints.target.isEmpty } }

def absorbNumeric (t : Term) (r : Record Number) : Record Number :=
  { r with
    range := Interval.merge r.range t.constraints.range
    decimals := least r.decimals t.constraints.decimals
    marks := { r.marks with
      integer := r.marks.integer || t.key == Vocabulary.integer
      timestamp := r.marks.timestamp || t.key == Vocabulary.timestamp } }

def absorbList (t : Term) (r : Record Number) : Record Number :=
  { r with
    size := Interval.merge r.size t.constraints.size
    marks := { r.marks with set := r.marks.set || t.key == Vocabulary.set } }

/-- The records of the axes of an object term. -/
structure Axes where
  keys : Option (Record Number) := none
  values : Option (Record Number) := none

def absorbObject (axes : Axes) (r : Record Number) : Record Number :=
  { r with
    keyRecord := axes.keys.or r.keyRecord
    valueRecord := axes.values.or r.valueRecord }

/-- Takes a term of the category `c` into a level. -/
def absorb (c : Category) (axes : Axes) (t : Term) (r : Record Number) : Record Number :=
  let r := match c with
    | .text => absorbText t r
    | .numeric => absorbNumeric t r
    | .list => absorbList t r
    | .object => absorbObject axes r
    | .any | .boolean | .struct => r
  { r with
    category := some c
    casts := appendNew r.casts t.casts
    customs := appendNew r.customs t.customs }

/-- Takes a term into the levels met so far, the deepest first. -/
def extend (c : Category) (axes : Axes) (t : Term) :
    List (Record Number) → List (Record Number)
  | [] => [absorb c axes t {}]
  | level :: above =>
      if level.category = some c then absorb c axes t level :: above
      else absorb c axes t {} :: level :: above

/-- Links levels, the deepest first, each to the one below it. -/
def link (levels : List (Record Number)) : Record Number :=
  (levels.foldl (fun below level => some { level with child := below }) none).getD {}

/-- How it ends when a hierarchy is taken in, and the terms in front that are left unread. -/
structure Intake (α : Type) where
  result : Except Failure α
  unread : Hierarchy

/-- A failure and the terms left unread in front of the one that caused it. -/
structure Stop where
  failure : Failure
  unread : Hierarchy

namespace Intake

variable {α β : Type}

def map (f : α → β) (i : Intake α) : Intake β :=
  ⟨i.result.map f, i.unread⟩

/-- The result alone. A failure keeps what is left unread. -/
def outcome (i : Intake α) : Except Stop α :=
  i.result.mapError fun f => ⟨f, i.unread⟩

private theorem outcome_map (f : α → β) (i : Intake α) : (i.map f).outcome = i.outcome.map f := by
  obtain ⟨result, unread⟩ := i
  cases result <;> rfl

end Intake

/-- The record of a key axis, which must describe text. -/
def requireText (id : String) (r : Record Number) : Except Failure (Record Number) :=
  match r.category with
  | some .text => .ok r
  | category => .error (.keyNotText id category)

mutual

/-- Takes in a hierarchy from its end. The result is its levels, the deepest first. -/
def takeIn : List Term → Intake (List (Record Number))
  | [] => ⟨.ok [], []⟩
  | t :: general =>
      match takeIn general with
      | ⟨.error f, unread⟩ => ⟨.error f, t :: unread⟩
      | ⟨.ok ls, unread⟩ =>
          match axesOf t with
          | .error f => ⟨.error f, unread⟩
          | .ok (c, axes) => ⟨.ok (extend c axes t ls), unread⟩

/-- A term's category, and the records of its axes if it is an object. -/
def axesOf : Term → Except Failure (Category × Axes)
  | ⟨id, _, category, _, _, _, _, keyAxis, valueAxis⟩ =>
      match Category.ofName? category with
      | none => .error (.unrecognizedCategory id category)
      | some .object => do
          let keys ← match ← ofAxis keyAxis with
            | none => .ok none
            | some r => some <$> requireText id r
          return (.object, ⟨keys, ← ofAxis valueAxis⟩)
      | some c => .ok (c, {})

/-- The record of an axis; an empty axis has none. -/
def ofAxis : Option (List Term) → Except Failure (Option (Record Number))
  | none => .ok none
  | some terms =>
      match (takeIn terms).result with
      | .error f => .error f
      | .ok ls => .ok (if terms.isEmpty then none else some (link ls))

end

/-- Takes in a hierarchy. The result is the record that it amounts to. -/
def consume (h : Hierarchy) : Intake (Record Number) :=
  (takeIn h).map link

/-- The levels of a hierarchy, the deepest first. -/
def levels (h : Hierarchy) : Except Stop (List (Record Number)) :=
  (takeIn h).outcome

/-- The record that a hierarchy amounts to. -/
def ofHierarchy (h : Hierarchy) : Except Stop (Record Number) :=
  (consume h).outcome

theorem ofHierarchy_eq (h : Hierarchy) : ofHierarchy h = (levels h).map link :=
  (takeIn h).outcome_map link

/-- Nothing is left unread of what is taken in. -/
theorem takeIn_unread {h : Hierarchy} {ls : List (Record Number)}
    (hl : (takeIn h).result = .ok ls) : (takeIn h).unread = [] := by
  induction h generalizing ls with
  | nil => simp only [takeIn]
  | cons t general ih =>
      cases hgeneral : takeIn general with
      | mk result unread =>
          cases result with
          | error f => simp only [takeIn, hgeneral] at hl; contradiction
          | ok above =>
              have hunread : unread = [] := by simpa only [hgeneral] using ih (by rw [hgeneral])
              simp only [takeIn, hgeneral]
              split <;> exact hunread

theorem levels_nil : levels [] = .ok [] := by
  simp only [levels, takeIn]
  rfl

theorem levels_cons (t : Term) (general : Hierarchy) : levels (t :: general) =
    match levels general with
    | .error stop => .error { stop with unread := t :: stop.unread }
    | .ok ls =>
        match axesOf t with
        | .error f => .error ⟨f, []⟩
        | .ok (c, axes) => .ok (extend c axes t ls) := by
  rw [levels, levels, takeIn]
  cases hgeneral : takeIn general with
  | mk result unread =>
      cases result with
      | error f => rfl
      | ok ls =>
          have hunread : unread = [] := by
            simpa only [hgeneral] using takeIn_unread (h := general) (by rw [hgeneral])
          subst hunread
          cases axesOf t <;> rfl

theorem ofAxis_some (terms : Hierarchy) : ofAxis (some terms) =
    match levels terms with
    | .error stop => .error stop.failure
    | .ok ls => .ok (if terms.isEmpty then none else some (link ls)) := by
  rw [levels, ofAxis]
  cases takeIn terms with
  | mk result unread => cases result <;> rfl

end Record

end TermRules
