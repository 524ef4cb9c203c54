import TermRules.Text.Letter
import TermRules.Text.Machine
import TermRules.Text.Quoted

/-!
Web addresses, as far as their scheme and host go: `scheme://host`, the host up to the first
slash, question mark or hash. Tabs and line ends are dropped beforehand. Only an empty scheme or
host disqualifies an address, but a host may be unfit to be taken apart at all. How strict readers
are with hosts in brackets has changed from one edition to the next.
-/

namespace TermRules.Text

/-- The parts of an address that matter; either may be empty. -/
structure Address where
  scheme : List Char
  host : List Char
  deriving DecidableEq

namespace Address

/-- Why an address cannot be taken apart. -/
inductive Fault where
  /-- A bracket in the host has no partner, or is not where it belongs. -/
  | unbalancedHost
  /-- The host holds a character that stands for a separator. -/
  | ambiguousHost (host : String)
  /-- The brackets enclose a version that is not well formed. -/
  | misspeltVersion
  /-- The brackets enclose four numbers with points. -/
  | bracketedNumbers
  /-- The brackets enclose what is no address of a machine. -/
  | unknownMachine (machine : String)
  deriving DecidableEq, Repr

def Fault.message : Fault → String
  | .unbalancedHost => "Invalid IPv6 URL"
  | .ambiguousHost host =>
      "netloc '" ++ host ++ "' contains invalid characters under NFKC normalization"
  | .misspeltVersion => "IPvFuture address is invalid"
  | .bracketedNumbers => "An IPv4 address cannot be in brackets"
  | .unknownMachine machine =>
      quoted machine ++ " does not appear to be an IPv4 or IPv6 address"

/-- What an edition of a reader sees to. -/
structure Edition where
  /-- Control characters and spaces in front do not count. -/
  trims : Bool
  /-- Brackets enclose the address of a machine. -/
  checksMachine : Bool
  /-- Brackets have at most a user in front of them and a port behind them. -/
  checksPlace : Bool
  deriving DecidableEq

namespace Edition

def lenient : Edition :=
  ⟨false, false, false⟩

def strict : Edition :=
  ⟨true, true, false⟩

def strictest : Edition :=
  ⟨true, true, true⟩

end Edition

def isSchemeChar (c : Char) : Bool :=
  isAsciiLetter c || isAsciiDigit c || c == '+' || c == '-' || c == '.'

/-- The scheme in front of the first colon, and what follows the colon. -/
def splitScheme (cs : List Char) : List Char × List Char :=
  let scheme := cs.takeWhile (· != ':')
  let rest := cs.dropWhile (· != ':')
  if rest.isEmpty || !scheme.head?.any isAsciiLetter || !scheme.all isSchemeChar then ([], cs)
  else (scheme, rest.drop 1)

def endsHost (c : Char) : Bool :=
  c == '/' || c == '?' || c == '#'

def hostOf : List Char → List Char
  | '/' :: '/' :: rest => rest.takeWhile (!endsHost ·)
  | _ => []

/-- What the first opening bracket encloses. -/
def enclosed (host : List Char) : List Char :=
  ((host.dropWhile (· != '[')).drop 1).takeWhile (· != ']')

/-- What follows the bracket that closes the first one. -/
def behindEnclosed (host : List Char) : List Char :=
  ((host.dropWhile (· != '[')).dropWhile (· != ']')).drop 1

/-- The host without the user in front of the last at-sign. -/
def withoutUser (host : List Char) : List Char :=
  (host.reverse.takeWhile (· != '@')).reverse

/-- Refuses what is no address of a machine, or one that needs no brackets. -/
def checkMachine (machine : List Char) : Except Fault Unit :=
  if machine.head? == some 'v' then
    if Machine.isVersioned machine then .ok () else .error .misspeltVersion
  else if Machine.isDotted machine then .error .bracketedNumbers
  else if Machine.isZoned machine then .ok ()
  else .error (.unknownMachine (String.ofList machine))

/-- Refuses brackets with anything but a user in front or a port behind. Without an opening
bracket behind the user, what is in front of the port counts as enclosed. -/
def checkPlace (host : List Char) : Except Fault Unit :=
  let machine := withoutUser host
  let port := behindEnclosed machine
  if !machine.contains '[' then checkMachine (machine.takeWhile (· != ':'))
  else if machine.head? != some '[' || !(port.isEmpty || port.head? == some ':') then
    .error .unbalancedHost
  else checkMachine (enclosed machine)

/-- Refuses brackets without a partner, and those with which the edition finds fault. -/
def checkBrackets (e : Edition) (host : List Char) : Except Fault Unit :=
  if host.contains '[' != host.contains ']' then .error .unbalancedHost
  else if !host.contains '[' then .ok ()
  else if e.checksPlace then checkPlace host
  else if e.checksMachine then checkMachine (enclosed host)
  else .ok ()

/-- Characters whose compatibility form holds a separator of addresses. -/
def disguisedSeparators : List Nat :=
  [0x2047, 0x2048, 0x2049, 0x2100, 0x2101, 0x2105, 0x2106, 0x2A74, 0xFE13, 0xFE16, 0xFE55, 0xFE56,
   0xFE5F, 0xFE6B, 0xFF03, 0xFF0F, 0xFF1A, 0xFF1F, 0xFF20]

/-- Whether a character in front of an address is dropped by editions that do so. -/
def isPadding (c : Char) : Bool :=
  c ≤ ' '

/-- An address without what does not count in front of it. -/
def trimmed (e : Edition) (cs : List Char) : List Char :=
  if e.trims then cs.dropWhile isPadding else cs

/-- The scheme and the host of an address, fit or unfit. -/
def parts (cs : List Char) : Address :=
  let (scheme, rest) := splitScheme (cs.filter fun c => !(c == '\t' || c == '\r' || c == '\n'))
  ⟨scheme, hostOf rest⟩

/-- Takes an address apart. -/
def ofText (e : Edition) (s : String) : Except Fault Address :=
  let a := parts (trimmed e s.toList)
  match checkBrackets e a.host with
  | .error cause => .error cause
  | .ok () =>
      if a.host.any fun c => disguisedSeparators.contains c.toNat then
        .error (.ambiguousHost (String.ofList a.host))
      else .ok a

/-- Whether the address has both a scheme and a host. -/
def isComplete (a : Address) : Bool :=
  !a.scheme.isEmpty && !a.host.isEmpty

end Address

end TermRules.Text
