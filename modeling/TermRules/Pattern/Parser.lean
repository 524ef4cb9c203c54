import TermRules.Number.Reading
import TermRules.Pattern.Escape
import TermRules.Pattern.Switches
import TermRules.Text.Identifier

/-!
Patterns read into trees. Every step of reading takes a token, so the number of tokens bounds the
depth.
-/

namespace TermRules.Pattern

/-- Where a part of a pattern stands: under the verbose flag or not, inside a group or not, and in
the first alternative of the whole pattern or not. -/
structure Scope where
  verbose : Bool
  nested : Bool
  first : Bool

/-- What a parenthesis turned out to be. -/
inductive Opening where
  | node (n : Node)
  | comment
  | flags

namespace Read

variable [Library]

def isPatternSpace (text : List Char) : Bool :=
  match text with
  | [c] => c == ' ' || c == '\t' || c == '\n' || c == '\r' || c == '\x0b' || c == '\x0c'
  | _ => false

/-- Skips to the end of the line. -/
def skipLine : Nat → Read Unit
  | 0 => return
  | fuel + 1 => do
      match ← next with
      | none => return
      | some text => if text = ['\n'] then return else skipLine fuel

/-- Skips a comment that began at `start`. -/
def skipComment (start : Nat) : Nat → Read Unit
  | 0 => failAt .unterminatedComment start
  | fuel + 1 => do
      if (← peek).isNone then failAt .unterminatedComment start
      else if (← next) = some [')'] then return
      else skipComment start fuel

/-- One end of a range, or a member of a set by itself. -/
def setMember (text : List Char) : Read Member :=
  match text with
  | ['\\', c] => setEscape c
  | c :: _ => return .code c.toNat
  | [] => return .code 0

/-- The members of a set that began at `start`, after those in `done`, last first. -/
def setMembers (start : Nat) : Nat → List Member → Read (List Member)
  | 0, _ => failAt .unterminatedSet start
  | fuel + 1, done => do
      match ← next with
      | none => failAt .unterminatedSet start
      | some text =>
          if text = [']'] && !done.isEmpty then return done.reverse
          else
            let low ← setMember text
            if ← accept '-' then
              match ← next with
              | none => failAt .unterminatedSet start
              | some upper =>
                  if upper = [']'] then return (.code '-'.toNat :: low :: done).reverse
                  else
                    let high ← setMember upper
                    let refused : Read (List Member) :=
                      fail (.badRange (String.ofList text) (String.ofList upper))
                        (text.length + 1 + upper.length)
                    match low, high with
                    | .code l, .code h =>
                        if h < l then refused else setMembers start fuel (.range l h :: done)
                    | _, _ => refused
            else setMembers start fuel (low :: done)

/-- The set after its opening bracket, which stands at `start`. -/
def bracketSet (start : Nat) : Read Node := do
  let negated ← accept '^'
  return .set negated (← setMembers start ((← get).tokens.length + 1) [])

/-- The counts of a repetition in braces after the opening one; `none` if the braces do not hold
any, and then nothing is taken. -/
def counts : Read (Option (Nat × Option Nat)) := do
  let saved := (← get).tokens
  if (← peek) = some ['\x7d'] then return none
  let fuel := saved.length
  let low ← takeWhile (·.isDigit) fuel
  let hasComma ← accept ','
  let high ← if hasComma then takeWhile (·.isDigit) fuel else pure low
  if ← accept '\x7d' then
    let least := digitsValue 10 low
    let most := if high.isEmpty then none else some (digitsValue 10 high)
    if countLimit ≤ least || most.any (countLimit ≤ ·) then throw (.misuse .repetitionTooLarge)
    else return some (least, most)
  else
    modify fun s => { s with tokens := saved }
    return none

/-- How a repetition goes about its rounds, by what follows its quantifier. -/
def greed : Read Greed := do
  if ← accept '?' then return .lazy
  if ← accept '+' then return .possessive
  return .greedy

/-- Repeats the last of the nodes in `done`. The quantifier stands at `start`. -/
def repeatLast (start low : Nat) (high : Option Nat) (done : List Node) : Read (List Node) := do
  if high.any (· < low) then failAt .reversedRepeat (start + 1)
  else match done with
    | [] | .anchor _ :: _ => failAt .nothingToRepeat start
    | .repetition _ _ _ _ :: _ => failAt .multipleRepeat start
    | node :: rest =>
        return .repetition (← greed) low high [node] :: rest

/-- Opens a group, named if it has a name. -/
def openGroup (name : Option String) : Read Nat := do
  let s ← get
  let number := s.groups.length
  match name with
  | none =>
      set { s with groups := s.groups ++ [none] }
      return number
  | some name =>
      match s.names.lookup name with
      | some earlier => fail (.groupRedefined name number earlier) (name.length + 1)
      | none =>
          set { s with groups := s.groups ++ [none], names := (name, number) :: s.names }
          return number

def requireName (name : String) : Read Unit := do
  if !Text.isIdentifier name.toList then fail (.badGroupName name) (name.length + 1)

/-- A reference to a group by its name. -/
def namedReference : Read Node := do
  let name ← upTo ')' "group name"
  requireName name
  let s ← get
  match s.names.lookup name with
  | none => fail (.unknownGroupName name) (name.length + 1)
  | some group =>
      if (s.groups.getD group none).isNone then fail .openGroup (name.length + 1)
      else
        requireBefore group
        return .backReference group

/-- A group's number, written like any whole number. -/
def groupNumber? (name : String) : Option Int :=
  let (negative, digits) :=
    Reading.splitSign ((Text.trim name.toList).map Reading.toAsciiDigit)
  (Reading.joinDigits? none digits).bind fun joined =>
    if joined.isEmpty || !joined.all Text.isAsciiDigit || digitLimit < joined.length then none
    else
      let n := digitsValue 10 joined
      some (if negative then -(n : Int) else n)

/-- Groups can be numbered below this only. -/
def groupLimit : Nat := 1073741823

/-- The group that a conditional depends on, by name or number. A number may be that of a group
still to come. -/
def condition : Read Nat := do
  let name ← upTo ')' "group name"
  let length := name.length
  let s ← get
  let group ←
    if Text.isIdentifier name.toList then
      match s.names.lookup name with
      | none => fail (.unknownGroupName name) (length + 1)
      | some group => pure group
    else match groupNumber? name with
      | none => fail (.badGroupName name) (length + 1)
      | some (.negSucc _) => fail (.badGroupName name) (length + 1)
      | some (.ofNat 0) => fail .badGroupNumber (length + 1)
      | some (.ofNat number) =>
          if groupLimit ≤ number then fail (.noSuchGroup number) (length + 1)
          else do
            let position := (← here) - length - 1
            if (s.references.lookup number).isNone then
              set { s with references := s.references ++ [(number, position)] }
            pure number
  requireBefore group
  return group

/-- Takes the parenthesis that closes the group opened at `start`. -/
def closing (start : Nat) : Read Unit := do
  if !(← accept ')') then failAt .unterminatedGroup start

def ofChoices : List (List Node) → List Node
  | [choice] => choice
  | choices => [.alternatives choices]

mutual

/-- Nodes in a row up to the end of the alternative, after those in `done`, last first. -/
def sequence : Nat → Scope → List Node → Read (List Node)
  | 0, _, _ => fail .endOfPattern
  | fuel + 1, scope, done => do
      let start ← here
      match ← peek with
      | none => return done.reverse
      | some ['|'] | some [')'] => return done.reverse
      | some text =>
          advance
          if scope.verbose && isPatternSpace text then sequence fuel scope done
          else if scope.verbose && text = ['#'] then
            skipLine (← get).tokens.length
            sequence fuel scope done
          else match text with
            | ['\\', c] => sequence fuel scope ((← escape c) :: done)
            | ['.'] => sequence fuel scope (.any :: done)
            | ['^'] => sequence fuel scope (.anchor .lineStart :: done)
            | ['$'] => sequence fuel scope (.anchor .lineEnd :: done)
            | ['['] => sequence fuel scope ((← bracketSet start) :: done)
            | ['?'] => sequence fuel scope (← repeatLast start 0 (some 1) done)
            | ['*'] => sequence fuel scope (← repeatLast start 0 none done)
            | ['+'] => sequence fuel scope (← repeatLast start 1 none done)
            | ['\x7b'] =>
                match ← counts with
                | none => sequence fuel scope (.literal '\x7b'.toNat :: done)
                | some (low, high) => sequence fuel scope (← repeatLast start low high done)
            | ['('] =>
                match ← opening fuel scope start with
                | .node n => sequence fuel scope (n :: done)
                | .comment => sequence fuel scope done
                | .flags =>
                    if scope.first && done.isEmpty then do
                      sequence fuel { scope with verbose := (← get).flags.verbose } done
                    else failAt .lateFlags start
            | c :: _ => sequence fuel scope (.literal c.toNat :: done)
            | [] => sequence fuel scope done
  termination_by structural fuel => fuel

/-- The alternatives up to a closing parenthesis or the end of the pattern. -/
def choices : Nat → Scope → Read (List (List Node))
  | 0, _ => fail .endOfPattern
  | fuel + 1, scope => do
      let choice ← sequence fuel scope []
      if ← accept '|' then
        let s ← get
        let verbose := if scope.nested then scope.verbose else s.flags.verbose
        return choice :: (← choices fuel { scope with verbose := verbose, first := false })
      else return [choice]
  termination_by structural fuel => fuel

/-- What follows an opening parenthesis at `start`. -/
def opening : Nat → Scope → Nat → Read Opening
  | 0, _, _ => fail .endOfPattern
  | fuel + 1, scope, start => do
      if !(← accept '?') then captured fuel scope start none
      else match ← next with
        | none => fail .endOfPattern
        | some ['P'] =>
            if ← accept '<' then
              let name ← upTo '>' "group name"
              requireName name
              captured fuel scope start (some name)
            else if ← accept '=' then return .node (← namedReference)
            else match ← next with
              | none => fail .endOfPattern
              | some text =>
                  fail (.unknownExtension (String.ofList ('P' :: text))) (text.length + 2)
        | some [':'] => return .node (.group none {} {} (← inside fuel scope scope.verbose start))
        | some ['>'] => return .node (.atomic (← inside fuel scope scope.verbose start))
        | some ['#'] =>
            skipComment start ((← get).tokens.length + 1)
            return .comment
        | some ['='] => return .node (.ahead false (← inside fuel scope scope.verbose start))
        | some ['!'] => return .node (.ahead true (← inside fuel scope scope.verbose start))
        | some ['<'] =>
            match ← next with
            | none => fail .endOfPattern
            | some ['='] => return .node (← lookBehind fuel scope start false)
            | some ['!'] => return .node (← lookBehind fuel scope start true)
            | some text =>
                fail (.unknownExtension (String.ofList ('<' :: text))) (text.length + 2)
        | some ['('] => return .node (← conditional fuel scope start)
        | some text =>
            if isFlagLetter text || text = ['-'] then
              match ← switches text with
              | .whole => return .flags
              | .group on off =>
                  let verbose := (scope.verbose || on.verbose) && !off.verbose
                  return .node (.group none on off (← inside fuel scope verbose start))
            else fail (.unknownExtension (String.ofList text)) (text.length + 1)
  termination_by structural fuel => fuel

/-- The inside of a group opened at `start`, and its closing parenthesis. -/
def inside : Nat → Scope → Bool → Nat → Read (List Node)
  | 0, _, _, _ => fail .endOfPattern
  | fuel + 1, _, verbose, start => do
      let body ← choices fuel ⟨verbose, true, false⟩
      closing start
      return ofChoices body
  termination_by structural fuel => fuel

/-- A group that is kept under a number. -/
def captured : Nat → Scope → Nat → Option String → Read Opening
  | 0, _, _, _ => fail .endOfPattern
  | fuel + 1, scope, start, name => do
      let number ← openGroup name
      let body ← inside fuel scope scope.verbose start
      modify fun s => { s with groups := s.groups.set number (some (extents s.groups body)) }
      return .node (.group (some number) {} {} body)
  termination_by structural fuel => fuel

/-- A look-behind. The first one marks the groups that are complete by then. -/
def lookBehind : Nat → Scope → Nat → Bool → Read Node
  | 0, _, _, _ => fail .endOfPattern
  | fuel + 1, scope, start, negated => do
      let outer := (← get).behind
      if outer.isNone then modify fun s => { s with behind := some s.groups.length }
      let body ← choices fuel ⟨scope.verbose, true, false⟩
      if outer.isNone then modify fun s => { s with behind := none }
      closing start
      let body := ofChoices body
      return .behind negated (extents (← get).groups body) body
  termination_by structural fuel => fuel

/-- A choice by whether a group has taken part. -/
def conditional : Nat → Scope → Nat → Read Node
  | 0, _, _ => fail .endOfPattern
  | fuel + 1, scope, start => do
      let group ← condition
      let scope : Scope := ⟨scope.verbose, true, false⟩
      let yes ← sequence fuel scope []
      let no ←
        if ← accept '|' then do
          let no ← sequence fuel scope []
          if (← peek) = some ['|'] then fail .tooManyBranches
          else pure no
        else pure []
      closing start
      return .conditional group yes no
  termination_by structural fuel => fuel

end

end Read

mutual

/-- Refuses look-behinds of uneven extent and, under the template flag, repetitions. -/
def Node.verify (template : Bool) : Node → Except Refusal Unit
  | .literal _ | .any | .set _ _ | .anchor _ | .backReference _ => .ok ()
  | .group _ _ _ body | .atomic body | .ahead _ body => verifyAll template body
  | .behind _ e body =>
      if e.least = e.most then verifyAll template body
      else .error (.malformed .unevenLookBehind none)
  | .conditional _ yes no => do
      verifyAll template yes
      verifyAll template no
  | .repetition greed _ _ body =>
      if template then
        let operator := match greed with
          | .greedy => "MAX_REPEAT"
          | .lazy => "MIN_REPEAT"
          | .possessive => "POSSESSIVE_REPEAT"
        .error (.malformed (.templateOperator operator) none)
      else verifyAll template body
  | .alternatives choices => verifyChoices template choices

def verifyAll (template : Bool) : List Node → Except Refusal Unit
  | [] => .ok ()
  | n :: ns => do
      n.verify template
      verifyAll template ns

def verifyChoices (template : Bool) : List (List Node) → Except Refusal Unit
  | [] => .ok ()
  | c :: cs => do
      verifyAll template c
      verifyChoices template cs

end

/-- Reads all of the tokens as one pattern. -/
def Read.whole [Library] : Read Regex := do
  requireToken
  let body ← choices (8 * (← get).tokens.length + 8) ⟨false, false, true⟩
  let s ← get
  if s.flags.ascii && s.flags.unicode then throw (.misuse .clashingFlags)
  if (← peek).isSome then fail .unbalanced
  match s.references.find? fun r => s.groups.length ≤ r.1 with
  | some (group, position) => failAt (.noSuchGroup group) position
  | none => return ⟨s.flags, ofChoices body⟩

/-- The regular expression that a pattern spells. -/
def parse [Library] (pattern : String) : Except Refusal Regex := do
  let cs := pattern.toList
  let (regex, _) ← Read.whole.run { tokens := tokens 0 cs, finish := cs.length }
  verifyAll regex.flags.template regex.body
  return regex

end TermRules.Pattern
