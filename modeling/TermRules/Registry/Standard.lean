import TermRules.Registry.Basic

/-!
The standard taxonomy: one base type for each category, and their well-known descendants.
-/

namespace TermRules

namespace Registry

/-- A standard term; its identifier is its key in the collection of terms. -/
def standardTerm (key : String) (category : Category) (parent : String)
    (casts customs : List String := []) (constraints : Constraints := {}) : Term where
  id := "terms/" ++ key
  key := key
  category := category.name
  parent := some parent
  constraints := constraints
  casts := casts.map Vocabulary.hook
  customs := customs.map Vocabulary.hook

open Vocabulary in
def standardTerms : List Term :=
  [standardTerm any .any root,
    standardTerm boolean .boolean root ["castBoolean"],
    standardTerm text .text root ["castString"],
    standardTerm string .text text,
    standardTerm key .text string [] [] { length := some ⟨.int 1, .int 255, true, true⟩ },
    standardTerm url .text string [] ["customUrl"],
    standardTerm hex .text string ["castHexadecimal"] ["customHex"],
    standardTerm email .text string [] ["customEmail"],
    standardTerm reference .text text,
    standardTerm referenceId .text reference,
    standardTerm referenceKey .text reference,
    standardTerm referenceGid .text reference,
    standardTerm enumeration .text referenceKey,
    standardTerm numeric .numeric root ["castNumber"],
    standardTerm integer .numeric numeric [] ["customInt"],
    standardTerm timestamp .numeric numeric [] ["customTimeStamp"],
    standardTerm list .list root,
    standardTerm set .list list,
    standardTerm struct .struct root,
    standardTerm object .object root]

def defaultDepth : Int := 10

def empty (maxDepth : Int := defaultDepth) : Registry :=
  ⟨maxDepth, []⟩

def standard (maxDepth : Int := defaultDepth) : Registry :=
  (empty maxDepth).addAll standardTerms

end Registry

end TermRules
