/-!
The command line. Settings may stand anywhere among the arguments of a command: a long name with
its value behind it or behind an equals sign, a short one with its value behind it or attached,
short ones without a value in a cluster. Two dashes end the settings. The last value given counts.
-/

namespace TermRules

namespace Command

inductive Setting where
  | terms
  | config
  | options
  | format
  | output
  | required
  | verbose
  deriving DecidableEq, Repr

namespace Setting

def longName : Setting → String
  | .terms => "--terms"
  | .config => "--config"
  | .options => "--options"
  | .format => "--format"
  | .output => "--output"
  | .required => "--required"
  | .verbose => "--verbose"

def shortName? : Setting → Option Char
  | .terms => some 't'
  | .config => some 'c'
  | .options => some 'o'
  | .format => some 'f'
  | .output | .required | .verbose => none

def takesValue : Setting → Bool
  | .required | .verbose => false
  | _ => true

end Setting

/-- Settings that an argument gives, and one that waits for the next argument as its value. -/
structure Given where
  settled : List (Setting × String) := []
  waiting : Option Setting := none

/-- A long name, perhaps with its value behind an equals sign. -/
def longSetting? (known : List Setting) (cs : List Char) : Option Given := do
  let name := cs.takeWhile (· != '=')
  let s ← known.find? fun s => s.longName.toList == name
  match s.takesValue, cs.dropWhile (· != '=') with
  | true, [] => some ⟨[], some s⟩
  | true, _ :: value => some ⟨[(s, String.ofList value)], none⟩
  | false, [] => some ⟨[(s, "")], none⟩
  | false, _ :: _ => none

/-- Short names, the last of them perhaps with its value attached. -/
def shortSettings? (known : List Setting) : List Char → Option Given
  | [] => some {}
  | c :: cs => do
      let s ← known.find? fun s => s.shortName? == some c
      if !s.takesValue then
        let more ← shortSettings? known cs
        return { more with settled := (s, "") :: more.settled }
      else if cs.isEmpty then return ⟨[], some s⟩
      else return ⟨[(s, String.ofList cs)], none⟩

/-- Whether an argument gives settings. A dash alone does not. -/
def isSetting (cs : List Char) : Bool :=
  cs.head? == some '-' && 1 < cs.length

def given? (known : List Setting) (cs : List Char) : Option Given :=
  match cs with
  | '-' :: '-' :: _ => longSetting? known cs
  | _ => shortSettings? known (cs.drop 1)

/-- The settings of a command in order, and its other arguments. -/
structure Line where
  settings : List (Setting × String) := []
  arguments : List String := []

/-- Reads the arguments of a command that knows the settings, if they are well formed. -/
def Line.read? (known : List Setting) : List String → Option Line
  | [] => some {}
  | arg :: rest =>
      if arg == "--" then some { arguments := rest }
      else if isSetting arg.toList then
        match given? known arg.toList with
        | none => none
        | some ⟨settled, none⟩ => (read? known rest).map fun l =>
            { l with settings := settled ++ l.settings }
        | some ⟨settled, some s⟩ => match rest with
          | [] => none
          | value :: rest => (read? known rest).map fun l =>
              { l with settings := settled ++ (s, value) :: l.settings }
      else (read? known rest).map fun l => { l with arguments := arg :: l.arguments }

/-- The last value given to a setting. -/
def Line.last? (l : Line) (s : Setting) : Option String :=
  (l.settings.reverse.find? fun e => e.1 == s).map (·.2)

structure Settings where
  terms : Option String := none
  config : Option String := none
  options : Option String := none
  format : Option String := none
  output : Option String := none
  required : Bool := false

def Line.toSettings (l : Line) : Settings where
  terms := l.last? .terms
  config := l.last? .config
  options := l.last? .options
  format := l.last? .format
  output := l.last? .output
  required := (l.last? .required).isSome

end Command

/-- What the program is asked to do. -/
inductive Invocation where
  | version
  | hierarchy (type : String) (settings : Command.Settings)
  | compile (type : String) (settings : Command.Settings)
  | render (type : String) (settings : Command.Settings)
  | check (type value : String) (settings : Command.Settings)

namespace Invocation

open Command

def ofCommand (name : String) (arguments : List String) : Option Invocation :=
  match name with
  | "hierarchy" => do
      let l ← Line.read? [.terms, .config, .output, .verbose] arguments
      match l.arguments with
      | [type] => some (.hierarchy type l.toSettings)
      | _ => none
  | "compile" => do
      let l ← Line.read? [.options, .format, .terms, .config, .output, .verbose] arguments
      match l.arguments with
      | [type] => some (.compile type l.toSettings)
      | _ => none
  | "render" => do
      let l ← Line.read? [.options, .format, .required, .terms, .config, .output, .verbose]
        arguments
      match l.arguments with
      | [type] => some (.render type l.toSettings)
      | _ => none
  | "check" => do
      let l ← Line.read? [.options, .format, .required, .terms, .config, .verbose] arguments
      match l.arguments with
      | [type, value] => some (.check type value l.toSettings)
      | _ => none
  | _ => none

/-- Whether an argument in front of the command asks for the version. -/
def asksVersion (arg : String) : Bool :=
  arg == "--version" || (arg.toList.drop 1).all (· == 'v')

/-- What the arguments ask for, if they are well formed. -/
def parse (arguments : List String) : Option Invocation :=
  let isLeading (arg : String) : Bool := isSetting arg.toList && arg != "--"
  let leading := arguments.takeWhile isLeading
  let rest := arguments.dropWhile isLeading
  if !leading.all asksVersion then none
  else if !leading.isEmpty then some .version
  else match rest with
    | "--" :: name :: more => ofCommand name more
    | name :: more => ofCommand name more
    | [] => none

end Invocation

end TermRules
