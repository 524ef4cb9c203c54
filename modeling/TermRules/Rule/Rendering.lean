import TermRules.Failure
import TermRules.Record.Basic
import TermRules.Rule.Basic

/-!
The rule of a record. Intervals become bounds: a single point an exact one, an infinite end none.
An exclusive end becomes a strict bound where there are names for these; elsewhere the quantity is
whole, and the end is shifted by one into an inclusive bound.
-/

namespace TermRules

/-- The names that the two ends of an interval and a single point go by, and those of exclusive
ends if there are any. -/
structure BoundNames where
  point : DirectiveName
  lower : DirectiveName
  upper : DirectiveName
  strict : Option (DirectiveName × DirectiveName) := none
  deriving DecidableEq

namespace BoundNames

def length : BoundNames := ⟨.exactLength, .minLength, .maxLength, none⟩

def range : BoundNames := ⟨.exact, .min, .max, none⟩

def continuousRange : BoundNames := { range with strict := some (.greater, .less) }

def size : BoundNames := ⟨.exactSize, .minSize, .maxSize, none⟩

end BoundNames

namespace Interval

variable {β : Type} [Bound β]

/-- The bound that one end stands for, which an exclusive end without a strict name moves by
`step`. -/
def endDirective (inclusive strict : DirectiveName) (isStrict : Bool) (step : Int)
    (bound : β) (isIncluded : Bool) : Except Misuse (List Directive) := do
  if ← Bound.isInfinite bound then return []
  if isIncluded then return [⟨inclusive, Bound.toValue bound⟩]
  if isStrict then return [⟨strict, Bound.toValue bound⟩]
  return [⟨inclusive, Bound.toValue (if step = 0 then bound else Bound.shift bound step)⟩]

/-- The bounds that an interval stands for. Exclusive ends are shifted only if `adjust` is set. -/
def directives (names : BoundNames) (adjust : Bool) (i : Interval β) :
    Except Misuse (List Directive) :=
  if Bound.same i.lower i.upper then .ok [⟨names.point, Bound.toValue i.lower⟩]
  else do
    let step : Int := if adjust then 1 else 0
    let strict := names.strict.getD (names.lower, names.upper)
    let low ← endDirective names.lower strict.1 names.strict.isSome step i.lower
      i.lowerInclusive
    let high ← endDirective names.upper strict.2 names.strict.isSome (-step) i.upper
      i.upperInclusive
    return low ++ high

end Interval

def Category.kind : Category → Kind
  | .any => .any
  | .boolean => .boolean
  | .text => .string
  | .numeric => .number
  | .list => .array
  | .struct => .struct
  | .object => .object

def Marks.directives (m : Marks) : List Directive :=
  [(DirectiveName.address, m.url), (.hexadecimal, m.hexadecimal), (.email, m.email),
    (.integer, m.integer), (.timestamp, m.timestamp), (.unique, m.set)].filterMap
    fun (name, isSet) => if isSet then some ⟨name, .null⟩ else none

namespace Record

variable {β : Type} [Bound β]

def boundsOf (names : BoundNames) (adjust : Bool) :
    Option (Interval β) → Except Misuse (List Directive)
  | none => .ok []
  | some i => i.directives names adjust

/-- A range is continuous unless the value is whole. -/
def rangeNames (r : Record β) : BoundNames :=
  if r.marks.integer then .range else .continuousRange

def directives (adjust : Bool) (r : Record β) : Except Misuse (List Directive) := do
  let length ← boundsOf .length adjust r.length
  let range ← boundsOf r.rangeNames adjust r.range
  let size ← boundsOf .size adjust r.size
  return length ++ range ++ size ++
    (r.decimals.map fun n => Directive.mk .precision (.int n)).toList ++
    (r.regex.map fun p => Directive.mk .pattern (.text p)) ++ r.marks.directives

def references (r : Record β) : List (String × Value) :=
  if r.marks.reference then r.target.form else []

/-- The rule of a record without its nested rules. -/
def ownRule (adjust : Bool) (r : Record β) : Except Misuse Rule := do
  return {
    kind := (r.category.getD .any).kind
    directives := ← r.directives adjust
    references := r.references
    casts := r.casts
    customs := r.customs }

mutual

/-- The rule of a record. Exclusive ends of whole quantities are shifted only if `adjust` is
set. -/
def rule (adjust : Bool) : Record β → Except Misuse Rule
  | ⟨category, length, regex, range, decimals, size, marks, target, casts, customs, child,
      keyRecord, valueRecord⟩ => do
      return { ← ownRule adjust ⟨category, length, regex, range, decimals, size, marks, target,
          casts, customs, none, none, none⟩ with
        items := ← partRule adjust child
        keys := ← partRule adjust keyRecord
        values := ← partRule adjust valueRecord }

def partRule (adjust : Bool) : Option (Record β) → Except Misuse (Option Rule)
  | none => .ok none
  | some r => do return some (← rule adjust r)

end

end Record

end TermRules
