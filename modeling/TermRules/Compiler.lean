import TermRules.Record.Hierarchy
import TermRules.Registry.Standard
import TermRules.Rule.Rendering
import TermRules.Term.Overlay

/-!
From types and descriptors to records and rules. A source of a type is a reference, a term or a
whole hierarchy of terms; a descriptor names a type, the format its values are held in and options.
Lists of references or of descriptors are compiled one by one.
-/

namespace TermRules

/-- A result, or results for the members of a list. -/
inductive Batch (α : Type) where
  | one (a : α)
  | many (results : List (Batch α))

namespace Registry

def compile (h : Hierarchy) : Except Failure (Record Number) :=
  (Record.ofHierarchy h).mapError (·.failure)

/-- Reads a term that stands for a type by itself. -/
def rawTerm [Readable Term] (v : Value) : Except Failure Term :=
  v.read.toExcept.mapError fun fields =>
    .unfit .rawRecord fields (((v.get? "_key").or (v.get? "key")).getD .null)

def rawTerms [Readable Term] : List Value → Except Failure Hierarchy
  | [] => .ok []
  | v :: vs => do
      let t ← rawTerm v
      return t :: (← rawTerms vs)

/-- The hierarchy that a source stands for. -/
def hierarchyOf [Readable Term] (r : Registry) : Value → Except Failure Hierarchy
  | .text reference => r.resolve reference
  | .list items => rawTerms items
  | v => return [← rawTerm v]

/-- Compiles a single source under options that have not been read yet. -/
def compileSource [Readable Options] [Readable Term] (r : Registry) (options : Value)
    (source : Value) : Except Failure (Record Number) := do
  let h ← r.hierarchyOf source
  compile (← h.injectValue options)

/-- The references of a batch: a list that is not empty and holds nothing but texts. -/
def batchOf? (source : Value) : Option (List String) :=
  source.texts?.filter fun references => !references.isEmpty

/-- Compiles a source, or each reference of a batch. -/
def compileType [Readable Options] [Readable Term] (r : Registry) (source options : Value) :
    Except Failure (Batch (Record Number)) :=
  match batchOf? source with
  | some references => do
      return .many ((← references.mapM fun ref => r.compileSource options (.text ref)).map .one)
  | none => .one <$> r.compileSource options source

/-- Compiles a hierarchy of terms under options. -/
def compileTerms [Readable Options] (h : Hierarchy) (options : Value) :
    Except Failure (Record Number) := do
  compile (← h.injectValue options)

/-- Compiles the type of a reference under the constraints of options. -/
def compileReference (r : Registry) (reference : String) (o : Options) :
    Except Failure (Record Number) := do
  compile ((← r.resolve reference).inject o.constraints)

/-- The hierarchy of the keys or values of an object. Options without a type give none. -/
def axisOf (r : Registry) : Option Options → Except Failure (Option Hierarchy)
  | none => .ok none
  | some o => match o.type with
    | none => .ok none
    | some type => do return some ((← r.resolve type).inject o.constraints)

/-- The containers by format. -/
def containers : List (String × String) :=
  [("list", Vocabulary.list), ("set", Vocabulary.set)]

def scalarFormat : String := "scalar"

/-- The container of a format, if it has one. An empty format is the scalar one. -/
def containerOf (type : String) (format : Option String) : Except Failure (Option String) :=
  let format := if (format.getD "").isEmpty then scalarFormat else format.getD ""
  if format = scalarFormat then .ok none
  else match containers.lookup format with
    | some key => .ok (some key)
    | none => .error (.unknownFormat format type)

/-- Puts the axes of an object in place of those of its term. -/
def withAxes (r : Registry) (o : Options) : Hierarchy → Except Failure Hierarchy
  | [] => .ok []
  | t :: ts => do
      let keys ← r.axisOf o.key
      let values ← r.axisOf o.value
      return { t with keyAxis := keys, valueAxis := values } :: ts

def isObject (h : Hierarchy) : Bool :=
  h.head?.any fun t => t.key == Vocabulary.object

/-- The hierarchy of a descriptor: that of its type, with the axes of an object, and that of its
container. Options are laid over it unless the type is the object type itself. -/
def descriptorHierarchy (r : Registry) (o : Options) : Except Failure Hierarchy :=
  match o.type with
  | none => .error .descriptorWithoutType
  | some type => do
      let container ← containerOf type o.format
      let types ← r.resolve type
      let isObject := isObject types
      let types ← if isObject then r.withAxes o types else .ok types
      let outer ← match container with
        | none => .ok []
        | some key => r.resolve key
      let h := types ++ outer
      return if isObject then h else h.inject o.constraints

def compileOptions (r : Registry) (o : Options) : Except Failure (Record Number) := do
  compile (← r.descriptorHierarchy o)

/-- Reads a descriptor. -/
def readDescriptor [Readable Options] (v : Value) : Except Failure Options :=
  v.read.toExcept.mapError fun fields =>
    .unfit .descriptor fields ((v.get? "type").getD .null)

mutual

/-- Compiles a descriptor, or each one of a list. -/
def compileDescriptor [Readable Options] (r : Registry) :
    Value → Except Failure (Batch (Record Number))
  | .list items => .many <$> compileDescriptors r items
  | .scalar s => do return .one (← r.compileOptions (← readDescriptor (.scalar s)))
  | .mapping entries => do
      return .one (← r.compileOptions (← readDescriptor (.mapping entries)))

def compileDescriptors [Readable Options] (r : Registry) :
    List Value → Except Failure (List (Batch (Record Number)))
  | [] => .ok []
  | v :: vs => do
      let record ← compileDescriptor r v
      return record :: (← compileDescriptors r vs)

end

end Registry

namespace Batch

/-- The rule of a record. Within a list only records have rules, not lists in turn. -/
def memberRule (adjust : Bool) : Batch (Record Number) → Except Failure (Batch Rule)
  | .one r => do return .one (← r.rule adjust)
  | .many _ => .error (.misuse .noFields)

/-- The rules of records. -/
def rules (adjust : Bool) : Batch (Record Number) → Except Failure (Batch Rule)
  | .one r => do return .one (← r.rule adjust)
  | .many results => do return .many (← results.mapM (memberRule adjust))

end Batch

/-- How types are compiled and rendered. A compiler that was given a registry without any terms
works from the standard one instead, whatever the registry gains later. -/
structure Compiler where
  own : Option Registry
  adjust : Bool

namespace Compiler

def forRegistry (given : Registry) (adjust : Bool) : Compiler :=
  ⟨if given.terms.isEmpty then some Registry.standard else none, adjust⟩

/-- The registry that is asked, where `given` is what the compiler was given as it is now. -/
def registry (c : Compiler) (given : Registry) : Registry :=
  c.own.getD given

end Compiler

end TermRules
