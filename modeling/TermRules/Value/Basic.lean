import TermRules.Number.Basic

/-!
Values that rules are checked against. A mapping keeps its entries in order and its keys are
scalars. Truth values count as the whole numbers 0 and 1 wherever a number is asked for.
-/

namespace TermRules

inductive Scalar where
  | null
  | bool (b : Bool)
  | int (n : Int)
  | double (d : Double)
  | text (s : String)
  deriving DecidableEq, Inhabited

inductive Value where
  | scalar (s : Scalar)
  | list (items : List Value)
  | mapping (entries : List (Scalar × Value))
  deriving Inhabited

abbrev Entries := List (Scalar × Value)

namespace Scalar

def number? : Scalar → Option Number
  | .bool b => some (.int (if b then 1 else 0))
  | .int n => some (.int n)
  | .double d => some (.double d)
  | .null | .text _ => none

/-- Equality of scalars: numbers by value, whatever their form. -/
def same (a b : Scalar) : Bool :=
  match a, b with
  | .null, .null => true
  | .text s, .text t => s == t
  | _, _ =>
      match a.number?, b.number? with
      | some x, some y => x.same y
      | _, _ => false

def isTruthy : Scalar → Bool
  | .null => false
  | .text s => !s.isEmpty
  | .bool b => b
  | .int n => n != 0
  | .double d => !(Number.double d).isZero

end Scalar

namespace Value

@[match_pattern] abbrev null : Value := .scalar .null

@[match_pattern] abbrev bool (b : Bool) : Value := .scalar (.bool b)

@[match_pattern] abbrev int (n : Int) : Value := .scalar (.int n)

@[match_pattern] abbrev double (d : Double) : Value := .scalar (.double d)

@[match_pattern] abbrev text (s : String) : Value := .scalar (.text s)

def ofNumber : Number → Value
  | .int n => .int n
  | .double d => .double d

def texts (ss : List String) : Value :=
  .list (ss.map .text)

def number? : Value → Option Number
  | .scalar s => s.number?
  | .list _ | .mapping _ => none

def text? : Value → Option String
  | .text s => some s
  | _ => none

def isNull : Value → Bool
  | .null => true
  | _ => false

/-- Empty containers and texts, null, false and the zeros are not truthy; a NaN is. -/
def isTruthy : Value → Bool
  | .scalar s => s.isTruthy
  | .list items => !items.isEmpty
  | .mapping entries => !entries.isEmpty

mutual

/-- Equality by content: containers member by member, mappings whatever their order. -/
def same : Value → Value → Bool
  | .scalar a, .scalar b => a.same b
  | .list xs, .list ys => sameItems xs ys
  | .mapping es, .mapping fs => es.length == fs.length && sameEntries es fs
  | _, _ => false

def sameItems : List Value → List Value → Bool
  | [], [] => true
  | x :: xs, y :: ys => same x y && sameItems xs ys
  | _, _ => false

/-- Whether every entry has its equal on the other side. -/
def sameEntries : Entries → Entries → Bool
  | [], _ => true
  | (k, v) :: es, fs =>
      (match fs.find? fun f => k.same f.1 with
        | some (_, w) => same v w
        | none => false) && sameEntries es fs

end

mutual

/-- Strictly less, or `none` for values without an order. Lists are ordered by the first pair of
unequal items. -/
def below? : Value → Value → Option Bool
  | .scalar a, .scalar b =>
      match a, b with
      | .text s, .text t => some (decide (s < t))
      | _, _ =>
          match a.number?, b.number? with
          | some x, some y => some (x.below y)
          | _, _ => none
  | .list xs, .list ys => itemsBelow? xs ys
  | _, _ => none

def itemsBelow? : List Value → List Value → Option Bool
  | [], [] => some false
  | [], _ :: _ => some true
  | _ :: _, [] => some false
  | x :: xs, y :: ys => if x.same y then itemsBelow? xs ys else below? x y

end

end Value

namespace Entries

/-- The value under the key `name`. -/
def get? (entries : Entries) (name : String) : Option Value :=
  entries.findSome? fun (k, v) => if k = .text name then some v else none

/-- Puts `v` under `k`: an equal key keeps its place and its spelling, a new one goes last. -/
def insert (entries : Entries) (k : Scalar) (v : Value) : Entries :=
  match entries with
  | [] => [(k, v)]
  | (k', v') :: rest =>
      if k'.same k then (k', v) :: rest else (k', v') :: insert rest k v

def ofList (pairs : List (Scalar × Value)) : Entries :=
  pairs.foldl (fun es (k, v) => es.insert k v) []

end Entries

namespace Value

def get? (v : Value) (name : String) : Option Value :=
  match v with
  | .mapping entries => Entries.get? entries name
  | _ => none

/-- A mapping with text keys. -/
def fields (pairs : List (String × Value)) : Value :=
  .mapping (pairs.map fun (k, v) => (.text k, v))

end Value

end TermRules
