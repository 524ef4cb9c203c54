import TermRules.Fields
import TermRules.Registry.File

/-!
Configuration: which terms are known, how rules are rendered, what the command line prints. It is
read from a JSON file, by default the nearest `.ontoschema.json` in the working directory or one
above it; without a file the defaults hold. A relative file of terms is looked for beside the
configuration file that names it.
-/

namespace TermRules

inductive OutputFormat where
  | table
  | json
  deriving DecidableEq, Repr

namespace OutputFormat

def name : OutputFormat → String
  | .table => "table"
  | .json => "json"

def all : List OutputFormat := [.table, .json]

def ofName? (s : String) : Option OutputFormat :=
  all.find? fun f => f.name == s

end OutputFormat

inductive LogLevel where
  | error
  | warn
  | info
  | debug
  deriving DecidableEq, Repr

namespace LogLevel

def name : LogLevel → String
  | .error => "error"
  | .warn => "warn"
  | .info => "info"
  | .debug => "debug"

def ofName? (s : String) : Option LogLevel :=
  [.error, .warn, .info, .debug].find? fun l => l.name == s

/-- The severity from which messages are shown. -/
def severity : LogLevel → Nat
  | .error => 40
  | .warn => 30
  | .info => 20
  | .debug => 10

end LogLevel

structure Config where
  termsFile : Option String := none
  useStandard : Bool := true
  maxDepth : Int := Registry.defaultDepth
  adjust : Bool := true
  format : OutputFormat := .table
  level : LogLevel := .warn
  deriving DecidableEq

/-- Why a configuration file was refused. -/
inductive ConfigFailure where
  | notJson (problem : Json.Refusal) (path : String)
  | numberTooLong (digits : Nat) (path : String)
  | undecodable (problem : Text.Undecodable) (path : String)
  | unreadable (problem : Unreadable) (path : String)
  | notMapping (found : String) (path : String)
  | unfit (fields : List String) (path : String)

namespace ConfigFailure

def failed (path : String) : String :=
  "Failed to load config from " ++ path

def message : ConfigFailure → String
  | .notJson problem path => "Invalid JSON in config file " ++ path ++ ": " ++ problem.message
  | .numberTooLong digits path =>
      failed path ++ ": " ++ (Json.Refusal.tooManyDigits digits).message
  | .undecodable problem path => failed path ++ ": " ++ problem.message
  | .unreadable problem path =>
      failed path ++ ": [Errno " ++ toString problem.number ++ "] " ++ problem.message ++ ": " ++
        Text.quoted path
  | .notMapping found path =>
      failed path ++ ": ontoschema.config.OntoschemaConfig() argument after ** must be a " ++
        "mapping, not " ++ found
  | .unfit _ path => failed path

end ConfigFailure

/-- What kind of value stands where a mapping was expected. -/
def Value.typeName : Value → String
  | .null => "NoneType"
  | .bool _ => "bool"
  | .int _ => "int"
  | .double _ => "float"
  | .text _ => "str"
  | .list _ => "list"
  | .mapping _ => "dict"

namespace Config

/-- The name under which configuration files are looked for. -/
def fileName : String := ".ontoschema.json"

def sectionNames : List String :=
  ["ontology", "render", "output", "logging"]

def depth? (v : Value) : Option Int :=
  v.whole?.filter fun n => decide (1 ≤ n)

/-- The field of a section that is read by `read`, or its default. -/
def sectionOf {α : Type} (name : String) (default : α) (read : Entries → Gathered α)
    (entries : Entries) : Gathered α :=
  match Entries.get? entries name with
  | none => .found default
  | some (.mapping fields) => match read fields with
    | .found a => .found a
    | .refused _ => .refused [name]
  | some _ => .refused [name]

def readOntology (entries : Entries) : Gathered (Option String × Bool × Int) :=
  (fun termsFile useStandard maxDepth => (termsFile, useStandard, maxDepth))
    <$> FieldName.optional ⟨"terms_file", "termsFile"⟩ Value.text? entries
    <*> FieldName.withDefault ⟨"use_builtin", "useBuiltin"⟩ true Value.flag? entries
    <*> FieldName.withDefault ⟨"max_depth", "maxDepth"⟩ Registry.defaultDepth depth? entries

def readRender (entries : Entries) : Gathered Bool :=
  FieldName.withDefault ⟨"exclusive_adjust", "exclusiveAdjust"⟩ true Value.flag? entries

def readOutput (entries : Entries) : Gathered OutputFormat :=
  FieldName.withDefault ⟨"format", "format"⟩ .table
    (fun v => v.text?.bind OutputFormat.ofName?) entries

def readLogging (entries : Entries) : Gathered LogLevel :=
  FieldName.withDefault ⟨"level", "level"⟩ .warn
    (fun v => v.text?.bind LogLevel.ofName?) entries

/-- Refuses fields that are no sections. -/
def knownOnly (entries : Entries) : Gathered Unit :=
  match entries.filterMap fun (k, _) =>
      if sectionNames.any fun name => k = .text name then none else some k.display with
  | [] => .found ()
  | unknown => .refused unknown

/-- Reads the sections of a configuration. -/
def read (entries : Entries) : Gathered Config :=
  (fun (termsFile, useStandard, maxDepth) adjust format level () =>
    ⟨termsFile, useStandard, maxDepth, adjust, format, level⟩)
    <$> sectionOf "ontology" (none, true, Registry.defaultDepth) readOntology entries
    <*> sectionOf "render" true readRender entries
    <*> sectionOf "output" .table readOutput entries
    <*> sectionOf "logging" .warn readLogging entries
    <*> knownOnly entries

/-- The configuration that a document holds. -/
def ofDocument [Readable Config] (path : String) (document : String) :
    Except ConfigFailure Config :=
  match Json.parse document with
  | .error (.tooManyDigits digits) => .error (.numberTooLong digits path)
  | .error problem => .error (.notJson problem path)
  | .ok (.mapping entries) =>
      (Readable.read entries).toExcept.mapError fun fields => .unfit fields path
  | .ok v => .error (.notMapping v.typeName path)

/-- A relative file of terms as seen from beside the configuration file at `path`. -/
def locateTerms (path : Path) (c : Config) : Config :=
  match c.termsFile with
  | none => c
  | some file =>
      if file.isEmpty || (Path.ofText file).isAbsolute then c
      else { c with termsFile := some (path.parent.join (Path.ofText file)).text }

/-- The configuration that what stands at a path gives; the defaults if nothing stands there. -/
def ofLook [Readable Config] (path : Path) (look : Look) : Except ConfigFailure Config :=
  if !look.isThere then .ok {}
  else match look.bytes with
    | .error problem => .error (.unreadable problem path.text)
    | .ok bytes => match Look.document bytes with
      | .error problem => .error (.undecodable problem path.text)
      | .ok document => (ofDocument path.text document).map (locateTerms path)

variable {m : Type → Type} [Monad m]

/-- The path of a configuration file in a directory, which is given by its parts, last first. -/
def fileIn (directory : List String) : Path :=
  ⟨"/", (fileName :: directory).reverse⟩

/-- The nearest configuration file in a directory or one above it. -/
def findAbove (disk : Disk m) : List String → m (Option Path)
  | [] => do
      if (← disk.look (fileIn [])).isThere then return some (fileIn []) else return none
  | name :: above => do
      if (← disk.look (fileIn (name :: above))).isThere then
        return some (fileIn (name :: above))
      else findAbove disk above

/-- The configuration file that holds for a directory, by default the working directory. -/
def find (disk : Disk m) (start : Option Path := none) : m (Option Path) := do
  let workingDirectory ← disk.workingDirectory
  let directory := (start.getD workingDirectory).resolve workingDirectory
  findAbove disk directory.parts.reverse

/-- Loads the configuration at a path, or the nearest one. -/
def load [Readable Config] (disk : Disk m) (path : Option Path := none) :
    m (Except ConfigFailure Config) := do
  let path ← match path with
    | some path => pure (some path)
    | none => find disk
  match path with
  | none => return .ok {}
  | some path => return ofLook path (← disk.look path)

/-- The registry that a configuration describes. -/
def registry [Readable Term] (disk : Disk m) (c : Config) : m (Except Failure Registry) :=
  match c.termsFile.filter fun file => !file.isEmpty with
  | some file => Registry.fromFile disk (.ofText file) c.useStandard c.maxDepth
  | none => return .ok (if c.useStandard then .standard c.maxDepth else .empty c.maxDepth)

end Config

end TermRules
