import TermRules.Interval.Loose
import TermRules.Number.Places
import TermRules.Pattern.Matching
import TermRules.Pattern.Parser
import TermRules.Rule.Hook

/-!
Checking a value against a rule. Each level runs the casts of its rule, looks at the kind of the
value, then at the directives in order, then at the items or entries of the value, and runs the
custom hooks last. The outcome is the value as the hooks leave it. Null passes unless a value is
required.
-/

namespace TermRules

/-- How many characters, items or entries a value has. -/
def Value.count? : Value → Option Nat
  | .text s => some s.length
  | .list items => some items.length
  | .mapping entries => some entries.length
  | _ => none

/-- How many decimal places a value shows when it is written out. -/
def Value.places : Value → Except Misuse Nat
  | .int n => ofCount (Number.int n).places?
  | .double d => ofCount (Number.double d).places?
  | .text s => ofCount (Reading.textPlaces? s)
  | _ => .ok 0
where
  ofCount (n : Option Nat) : Except Misuse Nat :=
    n.elim (.error .beyondDecimal) .ok

namespace Relation

/-- Strict order, where there is one. -/
def isBelow (a b : Value) : Except Misuse Bool :=
  (a.below? b).elim (.error .incomparable) .ok

/-- Whether `a` stands in the relation to the limit. A NaN is on no side of any limit and passes
every relation but equality. -/
def holds (r : Relation) (a limit : Value) : Except Misuse Bool :=
  match r with
  | .exactly => .ok (a.same limit)
  | .atLeast => return !(← isBelow a limit)
  | .atMost => return !(← isBelow limit a)
  | .above => return !(← isBelow a limit) && !a.same limit
  | .below => return !(← isBelow limit a) && !a.same limit

end Relation

/-- Rejects a value for the reason unless it is accepted. -/
def demand (accepted : Bool) (reason : Reason) (path : String) (v : Value) : Except Failure Unit :=
  if accepted then .ok () else .error (.rejected reason path v)

namespace Directive

def checkCount (r : Relation) (limit v : Value) (path : String) : Except Failure Unit :=
  match v.count? with
  | none => .error (.misuse .unsized)
  | some n => do demand (← r.holds (.int n) limit) (.count r limit) path v

def checkBound (r : Relation) (limit v : Value) (path : String) : Except Failure Unit := do
  demand (← r.holds v limit) (.bound r limit) path v

def checkPlaces (limit v : Value) (path : String) : Except Failure Unit := do
  demand (← Relation.atMost.holds (.int (← v.places)) limit) (.places limit) path v

def checkWhole (v : Value) (path : String) : Except Failure Unit :=
  match v with
  | .double d => demand d.toInt?.isSome .notWhole path v
  | _ => .ok ()

variable [Library]

/-- The regular expression that a pattern spells. -/
def regexOf (pattern : String) : Except Failure Pattern.Regex :=
  match Pattern.parse pattern with
  | .ok r => .ok r
  | .error (.malformed complaint position) =>
      .error (.invalidPattern (complaint.message pattern.toList position) pattern)
  | .error (.misuse cause) => .error (.misuse cause)

def checkPattern (limit v : Value) (path : String) : Except Failure Unit :=
  match limit with
  | .text pattern => do
      let regex ← regexOf pattern
      match v with
      | .text s => demand (regex.isFoundIn s) (.unmatched pattern) path v
      | _ => .error (.misuse .notText)
  | _ => .error (.misuse .notText)

/-- Rejects texts that are not recognised, and refuses anything but texts. -/
def checkText (recognised : String → Bool) (reason : Reason) (v : Value) (path : String) :
    Except Failure Unit :=
  match v with
  | .text s => demand (recognised s) reason path v
  | _ => .error (.misuse .notText)

/-- The first member that equals one in front of it. -/
def repeated? (seen : List Value) : List Value → Option Value
  | [] => none
  | v :: vs => if seen.any v.same then some v else repeated? (seen ++ [v]) vs

def checkUnique (v : Value) (path : String) : Except Failure Unit := do
  match repeated? [] (← v.members) with
  | none => return
  | some member => throw (.rejected .repeated path member)

/-- Checks one demand on a value. -/
def check (d : Directive) (v : Value) (path : String) : Except Failure Unit :=
  match d.name with
  | .required | .timestamp => .ok ()
  | .exactLength | .exactSize => checkCount .exactly d.value v path
  | .minLength | .minSize => checkCount .atLeast d.value v path
  | .maxLength | .maxSize => checkCount .atMost d.value v path
  | .exact => checkBound .exactly d.value v path
  | .min => checkBound .atLeast d.value v path
  | .max => checkBound .atMost d.value v path
  | .greater => checkBound .above d.value v path
  | .less => checkBound .below d.value v path
  | .precision => checkPlaces d.value v path
  | .integer => checkWhole v path
  | .pattern => checkPattern d.value v path
  | .address => (Custom.acceptAddress v path).map fun _ => ()
  | .hexadecimal => checkText Text.isHexadecimal .notHexadecimal v path
  | .email => checkText Text.isEmail .notEmail v path
  | .unique => checkUnique v path

def checkAll (v : Value) (path : String) : List Directive → Except Failure Unit
  | [] => .ok ()
  | d :: ds => do
      d.check v path
      checkAll v path ds

end Directive

/-- Whether a value is of the kind. Truth values are no numbers. -/
def Kind.admits : Kind → Value → Bool
  | .any, _ => true
  | .boolean, .bool _ => true
  | .string, .text _ => true
  | .number, .int _ | .number, .double _ => true
  | .array, .list _ => true
  | .struct, .mapping _ | .object, .mapping _ => true
  | _, _ => false

namespace Rule

def runCasts (hooks : Hooks) (path : String) : List String → Value → Except Failure Value
  | [], v => .ok v
  | name :: names, v => do
      runCasts hooks path names (← (← Hooks.lookup hooks.casts name).apply v path)

variable [Library]

def runCustoms (hooks : Hooks) (path : String) : List String → Value → Except Failure Value
  | [], v => .ok v
  | name :: names, v => do
      runCustoms hooks path names (← (← Hooks.lookup hooks.customs name).apply v path)

/-- The value after the casts. A rule for any kind of value runs none, and containers cannot be
cast. -/
def cast (hooks : Hooks) (kind : Kind) (casts : List String) (v : Value) (path : String) :
    Except Failure Value :=
  if casts.isEmpty || kind == .any then .ok v
  else match v with
    | .scalar _ => runCasts hooks path casts v
    | _ => .error (.rejected .notScalar path v)

/-- Checks the items of a list in order, the first of them at `index`. -/
def mapItems (step : Value → String → Except Failure Value) (path : String) (index : Nat) :
    List Value → Except Failure (List Value)
  | [] => .ok []
  | v :: vs => do
      let w ← step v (Position.item path index)
      return w :: (← mapItems step path (index + 1) vs)

/-- A key after it has been checked. -/
def keyOf (k : Scalar) : Value → Scalar
  | .scalar s => s
  | _ => k

/-- Checks the keys and the values of entries in order, and puts them into those in `done`. -/
def mapEntries (onKey onValue : Value → String → Except Failure Value) (path : String)
    (done : Entries) : Entries → Except Failure Entries
  | [] => .ok done
  | (k, v) :: es => do
      let place := Position.entry path k
      let key ← onKey (.scalar k) place
      let w ← onValue v place
      mapEntries onKey onValue path (done.insert (keyOf k key) w) es

mutual

/-- Checks a value and returns it as the hooks leave it. `path` says where the value stands. -/
def check (hooks : Hooks) : Rule → Value → String → Except Failure Value
  | ⟨kind, directives, _, casts, customs, items, keys, values⟩, v, path =>
      if v.isNull then
        if directives.any (·.name == .required) then .error (.rejected .missing path v)
        else .ok v
      else do
        let v ← cast hooks kind casts v path
        if !kind.admits v then throw (.rejected (.wrongKind kind) path v)
        Directive.checkAll v path directives
        let v ← match kind, v with
          | .array, .list vs => .list <$> mapItems (checkPart hooks items) path 0 vs
          | .object, .mapping es =>
              if keys.isNone && values.isNone then .ok v
              else .mapping <$>
                mapEntries (checkPart hooks keys) (checkPart hooks values) path [] es
          | _, _ => .ok v
        runCustoms hooks path customs v

/-- Checks against a nested rule; without one the value passes as it is. -/
def checkPart (hooks : Hooks) : Option Rule → Value → String → Except Failure Value
  | none, v, _ => .ok v
  | some r, v, path => check hooks r v path

end

/-- Whether the value satisfies the rule. -/
def isValid (hooks : Hooks) (r : Rule) (v : Value) : Except Failure Bool :=
  match check hooks r v "" with
  | .ok _ => .ok true
  | .error (.rejected _ _ _) => .ok false
  | .error f => .error f

end Rule

end TermRules
