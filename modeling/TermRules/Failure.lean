import TermRules.Category
import TermRules.Json.Parser
import TermRules.Misuse
import TermRules.Rule.Reason
import TermRules.Text.Utf8

/-!
What can go wrong when types are resolved, compiled into rules and checked, by its cause, with the
wording of each cause. A cause that concerns something carries it, and its message ends in it.
-/

namespace TermRules

/-- What a mapping was taken for when its fields were refused. -/
inductive Shape where
  | term
  | rawRecord
  | descriptor
  deriving DecidableEq, Repr

def Shape.complaint : Shape → String
  | .term => "Invalid term record"
  | .rawRecord => "Raw type record needs identifier, key and category"
  | .descriptor => "Invalid descriptor options"

inductive Failure where
  | unknownType (reference : String)
  | notAType (reference : String)
  | tooDeep (reference : String) (maxDepth : Int)
  | unrecognizedCategory (id : String) (category : String)
  /-- The category is missing where the keys have none. -/
  | keyNotText (id : String) (category : Option Category)
  /-- The named fields do not fit the shape. -/
  | unfit (shape : Shape) (fields : List String) (reference : Value)
  /-- The named fields of options do not fit. -/
  | unfitOptions (fields : List String)
  | descriptorWithoutType
  | unknownFormat (format : String) (type : String)
  | invalidPattern (problem : String) (pattern : String)
  | termsNotJson (problem : Json.Refusal) (path : String)
  | termsUnreadable (problem : String) (path : String)
  | termsNotList (path : String)
  | termNotMapping (path : String)
  | undecodable (problem : Text.Undecodable)
  | numberTooLong (digits : Nat)
  | unknownHook (name : String)
  | rejected (reason : Reason) (path : String) (value : Value)
  | misuse (cause : Misuse)

namespace Failure

/-- What the failure is about; null if it is about nothing in particular. -/
def reference : Failure → Value
  | .unknownType r | .notAType r | .tooDeep r _ => .text r
  | .unrecognizedCategory id _ | .keyNotText id _ => .text id
  | .unfit _ _ r => r
  | .unknownFormat _ type => .text type
  | .invalidPattern _ pattern => .text pattern
  | .termsNotJson _ path | .termsUnreadable _ path | .termsNotList path
  | .termNotMapping path => .text path
  | .unknownHook name => .text name
  | .rejected _ _ value => value
  | .unfitOptions _ | .descriptorWithoutType | .undecodable _ | .numberTooLong _
  | .misuse _ => .null

/-- What is wrong, without what it is about. -/
def complaint : Failure → String
  | .unknownType _ => "Unknown type reference"
  | .notAType _ => "Term is not a data type"
  | .tooDeep _ maxDepth => "Type hierarchy deeper than " ++ toString maxDepth ++ " levels"
  | .unrecognizedCategory _ category => "Unrecognized base category '" ++ category ++ "'"
  | .keyNotText _ category =>
      "Object keys must be text, got '" ++ (category.map (·.name)).getD "None" ++ "'"
  | .unfit shape _ _ => shape.complaint
  | .unfitOptions _ => "Invalid options"
  | .descriptorWithoutType => "Descriptor has no data type"
  | .unknownFormat format _ => "Unknown descriptor format '" ++ format ++ "'"
  | .invalidPattern problem _ => "Invalid regular expression: " ++ problem
  | .termsNotJson problem _ => "Invalid JSON in terms file: " ++ problem.message
  | .termsUnreadable problem _ => "Cannot read terms file: " ++ problem
  | .termsNotList _ => "Terms file must contain a list of terms"
  | .termNotMapping _ => "Term entries must be objects"
  | .undecodable problem => problem.message
  | .numberTooLong digits => (Json.Refusal.tooManyDigits digits).message
  | .unknownHook _ => "Unknown validation hook"
  | .rejected reason _ _ => reason.message
  | .misuse (.address fault) => fault.message
  | .misuse .clashingFlags => "ASCII and UNICODE flags are incompatible"
  | .misuse .nullInPath => "embedded null byte"
  | .misuse _ => "Unsuitable value"

/-- The full wording: a rejection names its place, any other failure what it is about. -/
def message (f : Failure) : String :=
  match f with
  | .rejected _ path _ => if path.isEmpty then f.complaint else f.complaint ++ " at " ++ path
  | .unfit _ fields _ =>
      let complaint := f.complaint ++ ": " ++ ", ".intercalate fields
      if f.reference.isNull then complaint else complaint ++ ": " ++ f.reference.display
  | .unfitOptions fields => f.complaint ++ ": " ++ ", ".intercalate fields
  | _ => if f.reference.isNull then f.complaint else f.complaint ++ ": " ++ f.reference.display

end Failure

instance : MonadLift (Except Misuse) (Except Failure) where
  monadLift x := x.mapError .misuse

end TermRules
