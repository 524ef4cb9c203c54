import TermRules.Pattern.Source
import TermRules.Text.Letter

/-!
Inline flags, such as `(?i)` for a whole pattern and `(?i-m:…)` for one group.
-/

namespace TermRules.Pattern

def flag? : Char → Option Flags
  | 'i' => some { ignoreCase := true }
  | 'm' => some { multiline := true }
  | 's' => some { dotAll := true }
  | 'x' => some { verbose := true }
  | 'a' => some { ascii := true }
  | 'u' => some { unicode := true }
  | 't' => some { template := true }
  | _ => none

/-- Whether a token is the letter of a flag, the one that text patterns refuse included. -/
def isFlagLetter : List Char → Bool
  | [c] => (flag? c).isSome || c == 'L'
  | _ => false

/-- Flags for the whole pattern, or those that a group switches on and off. -/
inductive Switches where
  | whole
  | group (on off : Flags)

namespace Read

/-- Refuses a token where a flag was due. -/
def refuseFlag {α : Type} (text : List Char) (what : String) : Read α :=
  match text with
  | [c] => fail (if Text.isLetter c then .unknownFlag else .missing what) 1
  | _ => fail (.missing what) text.length

/-- Flags to switch on, starting with the token `text`, up to the character that ends them. -/
def flagsOn : Nat → List Char → Flags → Read (Flags × Char)
  | 0, _, _ => fail (.missing "-, : or )")
  | fuel + 1, text, done => do
      match text.head?.bind flag? with
      | none => fail .localeFlag
      | some flag =>
          let done := done.or flag
          if done.ascii && done.unicode then fail .clashingFlags
          else match ← next with
            | none => fail (.missing "-, : or )")
            | some text =>
                if text = [')'] then return (done, ')')
                else if text = ['-'] then return (done, '-')
                else if text = [':'] then return (done, ':')
                else if isFlagLetter text then flagsOn fuel text done
                else refuseFlag text "-, : or )"

/-- Flags to switch off, starting with the token `text`, up to the colon. -/
def flagsOff : Nat → List Char → Flags → Read Flags
  | 0, _, _ => fail (.missing ":")
  | fuel + 1, text, done => do
      match text.head?.bind flag? with
      | none => fail .typeFlagOff
      | some flag =>
          if flag.ascii || flag.unicode then fail .typeFlagOff
          else
            let done := done.or flag
            match ← next with
            | none => fail (.missing ":")
            | some text =>
                if text = [':'] then return done
                else if isFlagLetter text then flagsOff fuel text done
                else refuseFlag text ":"

/-- The flags that start with the token `text`. -/
def switches (text : List Char) : Read Switches := do
  let fuel := (← get).tokens.length + 1
  let (on, stop) ← if text = ['-'] then pure ({}, '-') else flagsOn fuel text {}
  if stop = ')' then
    modify fun s => { s with flags := s.flags.or on }
    return .whole
  else if on.template then fail .globalFlagOn 1
  else
    let off ← if stop = '-' then
        match ← next with
        | none => fail (.missing "flag")
        | some text =>
            if isFlagLetter text then flagsOff fuel text {} else refuseFlag text "flag"
      else pure {}
    if off.template then fail .globalFlagOff 1
    else if on.meets off then fail .flagOnAndOff 1
    else return .group on off

end Read

end TermRules.Pattern
