import TermRules.Misuse
import TermRules.Text.Quoted

/-!
What is wrong with a pattern that is not well formed, with its wording, and where. Positions count
characters from zero; a pattern of several lines is also given the line and the column.
-/

namespace TermRules.Pattern

inductive Complaint where
  | danglingEscape
  | incompleteEscape (escape : String)
  | badEscape (escape : String)
  | octalTooLarge (escape : String)
  | missing (what : String)
  | unterminatedName (terminator : Char)
  | unknownCharacter (name : String)
  | openGroup
  | sameLookBehind
  | noSuchGroup (number : Nat)
  | unterminatedSet
  | badRange (low high : String)
  | reversedRepeat
  | nothingToRepeat
  | multipleRepeat
  | endOfPattern
  | badGroupName (name : String)
  | unknownGroupName (name : String)
  | badGroupNumber
  | groupRedefined (name : String) (number earlier : Nat)
  | unknownExtension (text : String)
  | unterminatedComment
  | unterminatedGroup
  | tooManyBranches
  | lateFlags
  | unknownFlag
  | localeFlag
  | clashingFlags
  | globalFlagOn
  | globalFlagOff
  | typeFlagOff
  | flagOnAndOff
  | unbalanced
  | unevenLookBehind
  | templateOperator (operator : String)
  deriving DecidableEq

def Complaint.text : Complaint → String
  | .danglingEscape => "bad escape (end of pattern)"
  | .incompleteEscape escape => "incomplete escape " ++ escape
  | .badEscape escape => "bad escape " ++ escape
  | .octalTooLarge escape => "octal escape value " ++ escape ++ " outside of range 0-0o377"
  | .missing what => "missing " ++ what
  | .unterminatedName terminator =>
      "missing " ++ String.singleton terminator ++ ", unterminated name"
  | .unknownCharacter name => "undefined character name " ++ Text.quoted name
  | .openGroup => "cannot refer to an open group"
  | .sameLookBehind => "cannot refer to group defined in the same lookbehind subpattern"
  | .noSuchGroup number => "invalid group reference " ++ toString number
  | .unterminatedSet => "unterminated character set"
  | .badRange low high => "bad character range " ++ low ++ "-" ++ high
  | .reversedRepeat => "min repeat greater than max repeat"
  | .nothingToRepeat => "nothing to repeat"
  | .multipleRepeat => "multiple repeat"
  | .endOfPattern => "unexpected end of pattern"
  | .badGroupName name => "bad character in group name " ++ Text.quoted name
  | .unknownGroupName name => "unknown group name " ++ Text.quoted name
  | .badGroupNumber => "bad group number"
  | .groupRedefined name number earlier =>
      "redefinition of group name " ++ Text.quoted name ++ " as group " ++ toString number ++
        "; was group " ++ toString earlier
  | .unknownExtension text => "unknown extension ?" ++ text
  | .unterminatedComment => "missing ), unterminated comment"
  | .unterminatedGroup => "missing ), unterminated subpattern"
  | .tooManyBranches => "conditional backref with more than two branches"
  | .lateFlags => "global flags not at the start of the expression"
  | .unknownFlag => "unknown flag"
  | .localeFlag => "bad inline flags: cannot use 'L' flag with a str pattern"
  | .clashingFlags => "bad inline flags: flags 'a', 'u' and 'L' are incompatible"
  | .globalFlagOn => "bad inline flags: cannot turn on global flag"
  | .globalFlagOff => "bad inline flags: cannot turn off global flag"
  | .typeFlagOff => "bad inline flags: cannot turn off flags 'a', 'u' and 'L'"
  | .flagOnAndOff => "bad inline flags: flag turned on and off"
  | .unbalanced => "unbalanced parenthesis"
  | .unevenLookBehind => "look-behind requires fixed-width pattern"
  | .templateOperator operator => "internal: unsupported template operator " ++ operator

inductive Refusal where
  | malformed (complaint : Complaint) (position : Option Nat)
  | misuse (cause : Misuse)
  deriving DecidableEq

/-- The wording of a complaint about `pattern`. -/
def Complaint.message (complaint : Complaint) (pattern : List Char) : Option Nat → String
  | none => complaint.text
  | some position =>
      let located := complaint.text ++ " at position " ++ toString position
      if pattern.contains '\n' then
        let before := pattern.take position
        let column := (before.reverse.takeWhile (· != '\n')).length + 1
        located ++ " (line " ++ toString (before.count '\n' + 1) ++ ", column " ++
          toString column ++ ")"
      else located

end TermRules.Pattern
