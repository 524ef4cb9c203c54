/-!
Text from bytes in UTF-8. A byte sequence that is none is refused with the bytes at fault: a lead
byte that starts nothing, a sequence broken off by a byte that does not continue it, or one cut
short by the end.
-/

namespace TermRules.Text

inductive Utf8Fault where
  | startByte
  | continuationByte
  | endOfData
  deriving DecidableEq, Repr

/-- A fault, the first byte that takes part in it, and the positions `start ≤ i < stop`. -/
structure Undecodable where
  fault : Utf8Fault
  byte : UInt8
  start : Nat
  stop : Nat
  deriving DecidableEq, Repr

def Utf8Fault.phrase : Utf8Fault → String
  | .startByte => "invalid start byte"
  | .continuationByte => "invalid continuation byte"
  | .endOfData => "unexpected end of data"

def Undecodable.message (u : Undecodable) : String :=
  let place :=
    if u.stop = u.start + 1 then
      let digits := Nat.toDigits 16 u.byte.toNat
      "byte 0x" ++ String.ofList (List.replicate (2 - digits.length) '0' ++ digits) ++
        " in position " ++ toString u.start
    else "bytes in position " ++ toString u.start ++ "-" ++ toString (u.stop - 1)
  "'utf-8' codec can't decode " ++ place ++ ": " ++ u.fault.phrase

def isContinuation (b : UInt8) : Bool :=
  0x80 ≤ b && b ≤ 0xBF

/-- Whether `b` may follow the lead byte `a`: no overlong forms, no surrogates, nothing above
U+10FFFF. -/
def continuesLead (a b : UInt8) : Bool :=
  isContinuation b && (a != 0xE0 || 0xA0 ≤ b) && (a != 0xED || b ≤ 0x9F) &&
    (a != 0xF0 || 0x90 ≤ b) && (a != 0xF4 || b ≤ 0x8F)

/-- The character of a lead byte's payload and the continuation bytes. -/
def sequenceChar (lead : Nat) (continuation : List UInt8) : Char :=
  Char.ofNat (continuation.foldl (fun n b => n * 64 + (b.toNat - 0x80)) lead)

/-- Decodes the bytes from position `here` on. -/
def decodeFrom (here : Nat) : List UInt8 → Except Undecodable (List Char)
  | [] => .ok []
  | a :: rest =>
      let broken (length : Nat) : Except Undecodable (List Char) :=
        .error ⟨.continuationByte, a, here, here + length⟩
      let short : Except Undecodable (List Char) :=
        .error ⟨.endOfData, a, here, here + 1 + rest.length⟩
      if a < 0x80 then (Char.ofNat a.toNat :: ·) <$> decodeFrom (here + 1) rest
      else if a < 0xC2 then .error ⟨.startByte, a, here, here + 1⟩
      else if a < 0xE0 then match rest with
        | [] => short
        | b :: tail =>
            if continuesLead a b then
              (sequenceChar (a.toNat - 0xC0) [b] :: ·) <$> decodeFrom (here + 2) tail
            else broken 1
      else if a < 0xF0 then match rest with
        | [] => short
        | [b] => if continuesLead a b then short else broken 1
        | b :: c :: tail =>
            if !continuesLead a b then broken 1
            else if !isContinuation c then broken 2
            else (sequenceChar (a.toNat - 0xE0) [b, c] :: ·) <$> decodeFrom (here + 3) tail
      else if a < 0xF5 then match rest with
        | [] => short
        | [b] => if continuesLead a b then short else broken 1
        | [b, c] =>
            if !continuesLead a b then broken 1
            else if !isContinuation c then broken 2
            else short
        | b :: c :: d :: tail =>
            if !continuesLead a b then broken 1
            else if !isContinuation c then broken 2
            else if !isContinuation d then broken 3
            else (sequenceChar (a.toNat - 0xF0) [b, c, d] :: ·) <$> decodeFrom (here + 4) tail
      else .error ⟨.startByte, a, here, here + 1⟩

/-- The text that the bytes spell. -/
def decode (bytes : List UInt8) : Except Undecodable String :=
  String.ofList <$> decodeFrom 0 bytes

/-- Every line ending, however it is spelled, as one line feed. -/
def unifyLineEnds : List Char → List Char
  | '\r' :: '\n' :: rest => '\n' :: unifyLineEnds rest
  | '\r' :: rest => '\n' :: unifyLineEnds rest
  | c :: rest => c :: unifyLineEnds rest
  | [] => []

end TermRules.Text
