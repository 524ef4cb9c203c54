import TermRules.Fields

/-!
The constraints that a term and the options of a descriptor have in common. Each is optional, and
options are laid over a term field by field: what they set replaces, what they leave out stays.
-/

namespace TermRules

/-- What a reference points to. -/
structure Target where
  collection : Option String := none
  instanceName : Option String := none
  terms : Option (List String) := none
  fields : Option (List String) := none
  deriving DecidableEq, Inhabited

structure Constraints where
  length : Option (Interval Number) := none
  regex : Option (List String) := none
  range : Option (Interval Number) := none
  decimals : Option Int := none
  size : Option (Interval Number) := none
  target : Target := {}
  deriving DecidableEq, Inhabited

namespace Target

def isEmpty (t : Target) : Bool :=
  t.collection.isNone && t.instanceName.isNone && t.terms.isNone && t.fields.isNone

/-- `above` laid over `below`. -/
def overlay (below above : Target) : Target where
  collection := above.collection.or below.collection
  instanceName := above.instanceName.or below.instanceName
  terms := above.terms.or below.terms
  fields := above.fields.or below.fields

def form (t : Target) : List (String × Value) :=
  [("collection", t.collection.map .text), ("instance", t.instanceName.map .text),
    ("terms", t.terms.map .texts), ("fields", t.fields.map .texts)].filterMap
    fun (name, v) => v.map (name, ·)

def read (entries : Entries) : Gathered Target :=
  Target.mk
    <$> FieldName.optional ⟨"collection", "collection"⟩ Value.text? entries
    <*> FieldName.optional ⟨"instance", "instance"⟩ Value.text? entries
    <*> FieldName.optional ⟨"terms", "terms"⟩ Value.texts? entries
    <*> FieldName.optional ⟨"fields", "fields"⟩ Value.texts? entries

end Target

namespace Constraints

/-- Takes the constraints of a scalar from `above` where it sets them. -/
def overlayScalar (below above : Constraints) : Constraints :=
  { below with
    length := above.length.or below.length
    regex := above.regex.or below.regex
    range := above.range.or below.range
    decimals := above.decimals.or below.decimals }

/-- Takes the size of a list from `above` if it sets one. -/
def overlayList (below above : Constraints) : Constraints :=
  { below with size := above.size.or below.size }

/-- Takes the target of a reference from `above` where it sets it. -/
def overlayReference (below above : Constraints) : Constraints :=
  { below with target := below.target.overlay above.target }

def form (c : Constraints) : List (String × Value) :=
  [("length", c.length.map Interval.form), ("regex", c.regex.map .texts),
    ("range", c.range.map Interval.form), ("decimals", c.decimals.map .int),
    ("size", c.size.map Interval.form)].filterMap (fun (name, v) => v.map (name, ·)) ++
    c.target.form

def read (entries : Entries) : Gathered Constraints :=
  Constraints.mk
    <$> FieldName.optional ⟨"length", "length"⟩ Value.interval? entries
    <*> FieldName.optional ⟨"regex", "regex"⟩ Value.textOrTexts? entries
    <*> FieldName.optional ⟨"range", "range"⟩ Value.interval? entries
    <*> FieldName.optional ⟨"decimals", "decimals"⟩ Value.whole? entries
    <*> FieldName.optional ⟨"size", "size"⟩ Value.interval? entries
    <*> Target.read entries

end Constraints

end TermRules
