import TermRules.Command.Invocation
import TermRules.Command.Rows
import TermRules.Command.Table
import TermRules.Compiler
import TermRules.Program
import TermRules.Rule.Check
import TermRules.Rule.Form
import TermRules.Rule.Summary

/-!
What the program prints and with which code it ends: 0 for success, 1 if the command reports a
failure, 2 for arguments that are not well formed. A misuse of values is no failure that commands
report; it ends the program without a word of theirs.
-/

namespace TermRules

open Program

def programName : String := "ontoschema"

def programVersion : String := "0.1.0"

structure Outcome where
  exitCode : Nat := 0
  output : String := ""
  /-- The misuse that ended the program. -/
  fault : Option Failure := none

/-- Whether commands report a failure. Of misuses they report those of a well-typed value. -/
def Failure.isReported : Failure → Bool
  | .misuse cause => match cause with
    | .wrongCount | .unknownName | .address _ | .clashingFlags | .nullInPath => true
    | _ => false
  | _ => true

/-- Why a command fails. -/
inductive Trouble where
  | config (cause : ConfigFailure)
  | failure (cause : Failure)
  | unknownOutput (name : String)
  | optionsNotJson (problem : Json.Refusal)
  | optionsNotMapping

namespace Trouble

def message : Trouble → String
  | .config cause => cause.message
  | .failure cause => cause.message
  | .unknownOutput name =>
      "Invalid output '" ++ name ++ "'. Must be one of: " ++
        ", ".intercalate (OutputFormat.all.map (·.name))
  | .optionsNotJson problem => "Invalid JSON in --options: " ++ problem.message
  | .optionsNotMapping => "--options must be a JSON object"

/-- Columns of the terminal. -/
def consoleWidth : Nat := 1000

/-- A message as the terminal shows it. -/
def shown (message : String) : String :=
  String.join <| (Table.shownLines message).flatMap fun line =>
    (Text.wrapLine consoleWidth line).map fun piece => String.ofList piece ++ "\n"

/-- How a command ends that fails. A rejected value is told apart from any other failure. -/
def outcome (t : Trouble) : Outcome :=
  match t with
  | .failure cause@(.rejected _ _ _) =>
      { exitCode := 1, output := shown ("Invalid: " ++ cause.message) }
  | .failure cause =>
      if cause.isReported then { exitCode := 1, output := shown ("Error: " ++ cause.message) }
      else { exitCode := 1, fault := some cause }
  | t => { exitCode := 1, output := shown ("Error: " ++ t.message) }

end Trouble

namespace Command

/-- What a command works with. -/
structure Setup where
  config : Config
  registry : Registry

/-- The format to print in: the one asked for, or else the configured one. -/
def Setup.format (setup : Setup) (s : Settings) : Except Trouble OutputFormat :=
  let name := s.output.getD ""
  if name.isEmpty then .ok setup.config.format
  else match OutputFormat.ofName? name with
    | some format => .ok format
    | none => .error (.unknownOutput name)

/-- The options given, or none. An empty text stands for none. -/
def readOptions (options : Option String) : Except Trouble Entries :=
  let document := options.getD ""
  if document.isEmpty then .ok []
  else match Json.parse document with
    | .ok (.mapping entries) => .ok entries
    | .ok _ => .error .optionsNotMapping
    | .error (.tooManyDigits digits) => .error (.failure (.numberTooLong digits))
    | .error problem => .error (.optionsNotJson problem)

/-- The descriptor of a type under the options given. -/
def descriptor (type : String) (s : Settings) : Except Trouble Entries := do
  let entries ← readOptions s.options
  return (entries.insert (.text "type") (.text type)).insert (.text "format")
    (.text (s.format.getD Registry.scalarFormat))

def compile (setup : Setup) (type : String) (s : Settings) :
    Except Trouble (Record Number) := do
  let entries ← descriptor type s
  let record : Except Failure (Record Number) := do
    setup.registry.compileOptions (← Registry.readDescriptor (.mapping entries))
  record.mapError .failure

def render (setup : Setup) (type : String) (s : Settings) : Except Trouble Rule := do
  let record ← compile setup type s
  let rule ← (record.rule setup.config.adjust).mapError fun cause => .failure (.misuse cause)
  return if s.required then rule.required else rule

/-- The value that an argument spells in JSON, or else the argument itself. -/
def readValue (argument : String) : Except Trouble Value :=
  match Json.parse argument with
  | .ok v => .ok v
  | .error (.tooManyDigits digits) => .error (.failure (.numberTooLong digits))
  | .error (.malformed _ _ _ _) => .ok (.text argument)

def printTable (title : String) (columns : List Column) (rows : List (List String)) : String :=
  String.join ((Table.lines ⟨title, columns, rows⟩).map (· ++ "\n"))

def fieldColumns : List Column :=
  [⟨"Level", .left⟩, ⟨"Field", .left⟩, ⟨"Value", .left⟩]

def termColumns : List Column :=
  [⟨"Level", .right⟩, ⟨"Term", .left⟩, ⟨"Category", .left⟩]

def printHierarchy (format : OutputFormat) (type : String) (chain : Hierarchy) : String :=
  match format with
  | .json =>
      Json.pretty true 0 (.list (chain.map fun t =>
        .fields [("key", .text t.key), ("category", .text t.category)])) ++ "\n"
  | .table =>
      printTable ("Type hierarchy: " ++ type) termColumns
        (chain.zipIdx.map fun (t, level) => [toString level, t.key, t.category])

def printRecord (format : OutputFormat) (type : String) (r : Record Number) : String :=
  match format with
  | .json => Json.pretty false 0 r.form ++ "\n"
  | .table => printTable ("Validation record: " ++ type) fieldColumns (r.rows "$")

def printRule (format : OutputFormat) (type : String) (r : Rule) : String :=
  match format with
  | .json => Json.pretty false 0 r.form ++ "\n"
  | .table =>
      printTable ("Rule: " ++ type) fieldColumns (r.rows "$") ++
        Trouble.shown ("Summary: " ++ r.summary)

def runHierarchy (setup : Setup) (type : String) (s : Settings) : Except Trouble String := do
  let format ← setup.format s
  let chain ← (setup.registry.resolve type).mapError .failure
  return printHierarchy format type chain

def runCompile (setup : Setup) (type : String) (s : Settings) : Except Trouble String := do
  let format ← setup.format s
  return printRecord format type (← compile setup type s)

def runRender (setup : Setup) (type : String) (s : Settings) : Except Trouble String := do
  let format ← setup.format s
  return printRule format type (← render setup type s)

def runCheck (setup : Setup) (type argument : String) (s : Settings) :
    Except Trouble String := do
  let rule ← render setup type s
  let v ← readValue argument
  let v ← (rule.check .standard v "").mapError .failure
  return "Valid\n" ++ Json.line false v ++ "\n"

variable {m : Type → Type} [Monad m]

/-- Loads what the settings name. A file of terms that they name takes the place of the one that
the configuration names. -/
def load (disk : Disk m) (s : Settings) : m (Except Trouble Setup) := do
  match ← Config.load disk (s.config.map Path.ofText) with
  | .error cause => return .error (.config cause)
  | .ok config =>
      let config := match s.terms with
        | some file => { config with termsFile := some (Path.ofText file).text }
        | none => config
      return (← config.registry disk).mapError .failure |>.map fun r => ⟨config, r⟩

/-- Whether an option names a path that no file has. -/
def namesNull (s : Settings) : Bool :=
  [s.terms, s.config].any fun file => file.any fun f => (Path.ofText f).hasNull

/-- Runs a command on what its settings name. A path that no file has ends the program. -/
def runWith (disk : Disk m) (s : Settings) (command : Setup → Except Trouble String) :
    m Outcome := do
  if namesNull s then return { exitCode := 1, fault := some (.misuse .nullInPath) }
  else match (← load disk s) >>= command with
    | .ok output => return { output }
    | .error t => return t.outcome

end Command

namespace Invocation

open Command

variable {m : Type → Type} [Monad m]

def run (disk : Disk m) : Invocation → m Outcome
  | .version => return { output := programName ++ " version " ++ programVersion ++ "\n" }
  | .hierarchy type s => runWith disk s fun setup => runHierarchy setup type s
  | .compile type s => runWith disk s fun setup => runCompile setup type s
  | .render type s => runWith disk s fun setup => runRender setup type s
  | .check type value s => runWith disk s fun setup => runCheck setup type value s

/-- Does what the arguments ask for. -/
def runArguments (disk : Disk m) (arguments : List String) : m Outcome :=
  match parse arguments with
  | some invocation => invocation.run disk
  | none => return { exitCode := 2 }

end Invocation

end TermRules
