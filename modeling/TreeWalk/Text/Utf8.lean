/-! # Strict UTF-8

Bytes are decoded without any leniency: no overlong forms, no surrogates, nothing
beyond the last code point, no sequence cut short.  A failure names the bytes at
fault: the start of the bad sequence and as many of its bytes as were acceptable.

## Key results

* `Utf8.decode` decodes a whole file at once.
* `Utf8.decodeBlocks` decodes a file that is read in blocks; the positions in its
  errors count from the start of the bytes being decoded at that moment. -/

namespace TreeWalk

/-- What is wrong with a sequence of bytes. -/
inductive Utf8Fault where
  | invalidStart
  | invalidContinuation
  | unexpectedEnd
  deriving DecidableEq, Repr

/-- The wording of a fault. -/
def Utf8Fault.text : Utf8Fault → String
  | .invalidStart => "invalid start byte"
  | .invalidContinuation => "invalid continuation byte"
  | .unexpectedEnd => "unexpected end of data"

/-- Bytes that are no UTF-8: `length` of them from `position` on, the first being
    `byte`. -/
structure Utf8Error where
  fault : Utf8Fault
  byte : UInt8
  position : Nat
  length : Nat
  deriving DecidableEq, Repr

namespace Utf8

/-- A byte as two hexadecimal digits. -/
def hexByte (b : UInt8) : String :=
  String.ofList [Nat.digitChar (b.toNat / 16), Nat.digitChar (b.toNat % 16)]

end Utf8

/-- The wording of the error. -/
def Utf8Error.message (e : Utf8Error) : String :=
  let what :=
    if e.length ≤ 1 then "byte 0x" ++ Utf8.hexByte e.byte ++ " in position " ++ toString e.position
    else "bytes in position " ++ toString e.position ++ "-" ++ toString (e.position + e.length - 1)
  "'utf-8' codec can't decode " ++ what ++ ": " ++ e.fault.text

namespace Utf8

/-- Whether a byte continues a sequence. -/
def isContinuation (b : UInt8) : Bool :=
  0x80 ≤ b && b < 0xC0

/-- Whether `second` may follow `first`: it continues the sequence and keeps it
    from being overlong, a surrogate or out of range. -/
def allowsSecond (first second : UInt8) : Bool :=
  isContinuation second &&
    (if first = 0xE0 then 0xA0 ≤ second
     else if first = 0xED then second < 0xA0
     else if first = 0xF0 then 0x90 ≤ second
     else if first = 0xF4 then second < 0x90
     else true)

/-- How many bytes a sequence has that starts with the given byte, and the bits
    that byte contributes. -/
def lead? (b : UInt8) : Option (Nat × Nat) :=
  if b < 0x80 then some (1, b.toNat)
  else if b < 0xC2 then none
  else if b < 0xE0 then some (2, b.toNat - 0xC0)
  else if b < 0xF0 then some (3, b.toNat - 0xE0)
  else if b < 0xF5 then some (4, b.toNat - 0xF0)
  else none

/-- What one sequence gives: a character and the number of its bytes, or a fault
    and the number of bytes it covers. -/
inductive Sequence where
  | char (c : Char) (size : Nat)
  | bad (fault : Utf8Fault) (size : Nat)

/-- Reads the bytes of a sequence after the first: `missing` of them, `taken` bytes
    having been accepted, `bits` being their content. -/
def readRest (taken bits : Nat) : Nat → List UInt8 → Sequence
  | 0, _ => .char (Char.ofNat bits) taken
  | _ + 1, [] => .bad .unexpectedEnd taken
  | missing + 1, b :: rest =>
    if isContinuation b then readRest (taken + 1) (bits * 64 + (b.toNat - 0x80)) missing rest
    else .bad .invalidContinuation taken

/-- Reads the sequence that starts with `first`. -/
def readSequence (first : UInt8) (rest : List UInt8) : Sequence :=
  match lead? first with
  | none => .bad .invalidStart 1
  | some (1, bits) => .char (Char.ofNat bits) 1
  | some (size, bits) =>
    match rest with
    | [] => .bad .unexpectedEnd 1
    | second :: others =>
      if allowsSecond first second then
        readRest 2 (bits * 64 + (second.toNat - 0x80)) (size - 2) others
      else .bad .invalidContinuation 1

/-- Decodes bytes, skipping `skip` bytes of a sequence already read; characters
    are gathered in reverse.  A sequence cut short by the end is left over. -/
def decodeFrom (position skip : Nat) (acc : List Char) :
    List UInt8 → Except Utf8Error (List Char × List UInt8)
  | [] => .ok (acc, [])
  | b :: rest =>
    match skip with
    | skip + 1 => decodeFrom (position + 1) skip acc rest
    | 0 =>
      match readSequence b rest with
      | .char c size => decodeFrom (position + 1) (size - 1) (c :: acc) rest
      | .bad .unexpectedEnd _ => .ok (acc, b :: rest)
      | .bad fault size => .error ⟨fault, b, position, size⟩

/-- The error of a sequence cut short at the end. -/
def cutShort (position : Nat) (left : List UInt8) : Utf8Error :=
  ⟨.unexpectedEnd, left.headD 0, position, left.length⟩

/-- The text of a whole file. -/
def decode (bytes : List UInt8) : Except Utf8Error (List Char) :=
  match decodeFrom 0 0 [] bytes with
  | .error e => .error e
  | .ok (acc, []) => .ok acc.reverse
  | .ok (_, left) => .error (cutShort (bytes.length - left.length) left)

/-- The text of a file read in blocks of `size` bytes; `left` was left over by the
    blocks before, `fuel` blocks may follow. -/
def decodeBlocks (size : Nat) (acc : List Char) (left : List UInt8) :
    Nat → List UInt8 → Except Utf8Error (List Char)
  | 0, _ => .ok acc.reverse
  | fuel + 1, bytes =>
    match bytes with
    | [] => if left.isEmpty then .ok acc.reverse else .error (cutShort 0 left)
    | _ =>
      -- What the last block left over comes first.
      match decodeFrom 0 0 acc (left ++ bytes.take size) with
      | .error e => .error e
      | .ok (acc, left) => decodeBlocks size acc left fuel (bytes.drop size)

/-- The text of a file that is read in blocks of 8192 bytes. -/
def decodeStream (bytes : List UInt8) : Except Utf8Error (List Char) :=
  decodeBlocks 8192 [] [] (bytes.length + 1) bytes

end Utf8

/-- One line feed for every line end: a carriage return, alone or before a line
    feed, counts as one. -/
def unifyNewlines : List Char → List Char
  | '\r' :: '\n' :: rest => '\n' :: unifyNewlines rest
  | '\r' :: rest => '\n' :: unifyNewlines rest
  | c :: rest => c :: unifyNewlines rest
  | [] => []

end TreeWalk
