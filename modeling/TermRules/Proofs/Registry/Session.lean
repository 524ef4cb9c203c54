import TermRules.Compiler
import TermRules.Program
import TermRules.Proofs.Success

/-!
A compiler and the registry it was given, over a whole run. Terms are added to the registry and
types compiled, in any order. Each type is compiled from the registry as it then is, if the registry
had terms when the compiler was given it; a compiler that was given an empty one never looks at it
again. Batches, options and descriptors are not asked for here.
-/

namespace TermRules

/-- What is asked in a run: to add a term, read or not, or to compile the type of a reference. -/
inductive Request where
  | add (t : Term)
  | addValue (v : Value)
  | compile (reference : String)

abbrev Answer := Except Failure (Batch (Record Number))

namespace Request

/-- The registry after a request. A term that cannot be read is not added. -/
def grow [Readable Term] (r : Registry) : Request → Registry
  | .add t => r.add t
  | .addValue v => match r.addValue v with
    | .ok (grown, _) => grown
    | .error _ => r
  | .compile _ => r

/-- What is answered in a run, where `ask` answers from the registry as it is at the time. -/
def answers [Readable Term] (ask : Registry → String → Answer) (r : Registry) :
    List Request → List Answer
  | [] => []
  | .compile reference :: requests => ask r reference :: answers ask r requests
  | request :: requests => answers ask (request.grow r) requests

/-- The references that are compiled in a run. -/
def references (requests : List Request) : List String :=
  requests.filterMap fun
    | .compile reference => some reference
    | _ => none

private theorem answers_of_fixed [Readable Term] (ask : String → Answer) (r : Registry)
    (requests : List Request) :
    answers (fun _ => ask) r requests = (references requests).map ask := by
  induction requests generalizing r with
  | nil => rfl
  | cons request requests ih =>
      cases request with
      | compile reference => exact congrArg (ask reference :: ·) (ih r)
      | add t => exact ih ((add t).grow r)
      | addValue v => exact ih ((addValue v).grow r)

end Request

namespace Registry

/-- What a registry makes of a reference: the record of the chain that it resolves to. -/
def chainRecord (r : Registry) (reference : String) : Answer := do
  let chain ← r.resolve reference
  return .one (← compile chain)

private theorem compileType_reference [Readable Options] [Readable Term] (r : Registry)
    (reference : String) : r.compileType (.text reference) .null = r.chainRecord reference := by
  change Batch.one <$> (r.resolve reference >>= fun h => h.injectValue .null >>= compile) = _
  rw [chainRecord]
  cases r.resolve reference <;> rfl

private theorem chainRecord_of_empty {r : Registry} (h : r.terms = []) (reference : String) :
    r.chainRecord reference = .error (.unknownType reference) := by
  have hlookup : r.lookup reference = none := by
    rw [lookup, ofKey?, h]
    cases afterSlash? reference with
    | none => rfl
    | some key => simp [ofKey?, h]
  rw [chainRecord, resolve, hlookup]
  rfl

end Registry

namespace Compiler

variable {given own : Registry} {adjust : Bool} {c : Compiler}

/-- What a compiler makes of a reference; `given` is the registry it was given, as it is now. -/
def ask [Readable Options] [Readable Term] (c : Compiler) (given : Registry) (reference : String) :
    Answer :=
  (c.registry given).compileType (.text reference) .null

private theorem ask_of_shared [Readable Options] [Readable Term] (hc : c.own = none) :
    c.ask = Registry.chainRecord := by
  funext given reference
  rw [ask, registry, hc, Option.getD_none, Registry.compileType_reference]

private theorem ask_of_own [Readable Options] [Readable Term] (hc : c.own = some own) :
    c.ask = fun _ => own.chainRecord := by
  funext given reference
  rw [ask, registry, hc, Option.getD_some, Registry.compileType_reference]

/-- A compiler that was given an empty registry goes by the standard one, whatever is added. -/
theorem answers_of_empty [Readable Options] [Readable Term] (h : given.terms = []) (adjust : Bool)
    (requests : List Request) :
    Request.answers (forRegistry given adjust).ask given requests =
      (Request.references requests).map Registry.standard.chainRecord := by
  have hown : (forRegistry given adjust).own = some Registry.standard := by
    rw [forRegistry, h]
    rfl
  rw [ask_of_own hown, Request.answers_of_fixed]

/-- A compiler answers every run as the registry it was given does at each point, exactly if that
had a term when it was given. -/
theorem answers_eq_iff [Readable Options] [Readable Term] (given : Registry) (adjust : Bool) :
    (∀ requests, Request.answers (forRegistry given adjust).ask given requests =
      Request.answers Registry.chainRecord given requests) ↔ given.terms ≠ [] := by
  constructor
  · intro hall hempty
    have htext := hall [.compile Vocabulary.text]
    rw [answers_of_empty hempty] at htext
    have hhead :
      Registry.standard.chainRecord Vocabulary.text = given.chainRecord Vocabulary.text :=
      (List.cons.inj htext).1
    rw [Registry.chainRecord_of_empty hempty] at hhead
    contradiction
  · intro hne requests
    have hshared : (forRegistry given adjust).own = none := by
      rw [forRegistry, if_neg (by simpa using hne)]
    rw [ask_of_shared hshared]

/-- Percentages, right below the root of the taxonomy. -/
def percent : Term where
  id := "terms/percent"
  key := "percent"
  category := "numeric"
  parent := some Vocabulary.root

section Program

open Program

/-- The registry is empty when it is given and gains a term. It knows the term then; its compiler
does not, but still knows texts, which the registry does not. -/
theorem answers_of_percent_added :
    (∃ record, Request.answers Registry.chainRecord Registry.empty
        [.add percent, .compile "percent", .compile Vocabulary.text] =
      [.ok (.one record), .error (.unknownType Vocabulary.text)]) ∧
    ∃ record, Request.answers (forRegistry Registry.empty true).ask Registry.empty
        [.add percent, .compile "percent", .compile Vocabulary.text] =
      [.error (.unknownType "percent"), .ok (.one record)] :=
  ⟨⟨_, rfl⟩, _, rfl⟩

end Program

end Compiler

end TermRules
