import TermRules.Text.Digit
import TermRules.Text.Recognised

/-!
Addresses of machines, as they may stand in brackets in a web address: four numbers with points
between them, up to eight groups of hexadecimal digits with colons between them, or a version with
whatever that version defines.
-/

namespace TermRules.Text.Machine

/-- A number of up to 255 without leading zeros. -/
def isOctet (cs : List Char) : Bool :=
  !cs.isEmpty && cs.length ≤ 3 && cs.all isAsciiDigit &&
    (cs == ['0'] || cs.head? != some '0') && ofDigits (cs.filterMap asciiDigit?) ≤ 255

/-- Four numbers with points. -/
def isDotted (cs : List Char) : Bool :=
  let octets := cs.splitOn '.'
  octets.length == 4 && octets.all isOctet

/-- One to four hexadecimal digits. -/
def isGroup (cs : List Char) : Bool :=
  !cs.isEmpty && cs.length ≤ 4 && cs.all isHexDigit

/-- The groups on one side of those that are left out, of which there may be none. -/
def beside : List (List Char) → List (List Char)
  | [[]] => []
  | parts => parts

/-- Eight groups, or fewer with an empty part in between for those that are left out. -/
def areGroups (parts : List (List Char)) : Bool :=
  match parts.tail.dropLast.findIdx? (·.isEmpty) with
  | none => parts.length == 8 && parts.all isGroup
  | some i =>
      let kept := beside (parts.take (i + 1)) ++ beside (parts.drop (i + 2))
      kept.length ≤ 7 && kept.all isGroup

/-- Groups with colons, of which the last two may be written as four numbers with points. -/
def isGrouped (cs : List Char) : Bool :=
  let parts := cs.splitOn ':'
  let last := parts.getLast?.getD []
  3 ≤ parts.length &&
    if last.contains '.' then isDotted last && areGroups (parts.dropLast ++ [['0'], ['0']])
    else areGroups parts

/-- Groups with colons, perhaps with a zone behind a per cent sign. -/
def isZoned (cs : List Char) : Bool :=
  let zone := cs.dropWhile (· != '%')
  (zone.isEmpty || (1 < zone.length && !zone.tail.contains '%')) &&
    isGrouped (cs.takeWhile (· != '%'))

/-- A version in hexadecimal digits, a point and something behind it. -/
def isVersioned : List Char → Bool
  | 'v' :: cs => match cs.dropWhile isHexDigit with
      | '.' :: _ :: _ => cs.head?.any isHexDigit
      | _ => false
  | _ => false

example : isZoned "fe80::1:192.0.2.7%eth0".toList = true := by decide

end TermRules.Text.Machine
