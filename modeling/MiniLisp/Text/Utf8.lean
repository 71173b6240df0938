import MiniLisp.Text.Hex

namespace MiniLisp.Text

/-!
# UTF-8

Texts as bytes.  The decoder takes bytes one by one.  It refuses a byte that
begins no character, and a byte that does not continue the character begun:
then the bytes of the begun character are the ones at fault.  Two bytes that
begin a surrogate are refused together with whatever follows them, and then the
first one is at fault.

A whole text is decoded with positions counted from its start.  A stream is
decoded in windows: positions are counted from the start of the window, to which
the bytes of a character begun in the window before belong.
-/

/-- Why bytes are no text. -/
inductive Utf8Reason where
  | invalidStart
  | invalidContinuation
  | unexpectedEnd
  deriving Repr, DecidableEq

/-- A run of bytes that is no character. -/
structure Malformed where
  /-- The first byte of the run. -/
  byte : UInt8
  position : Nat
  length : Nat
  reason : Utf8Reason
  deriving Repr, DecidableEq

/-- A character of which the first bytes have been seen. -/
structure Begun where
  first : UInt8
  seen : Nat
  /-- How many bytes are to come after the next one. -/
  afterNext : Nat
  /-- The least value the next byte may have. -/
  low : Nat
  /-- The greatest value the next byte may have. -/
  high : Nat
  /-- The bits of the bytes seen. -/
  bits : Nat
  deriving Repr, DecidableEq

/-- A decoder between two bytes. -/
structure Decoder where
  /-- The position of the next byte. -/
  position : Nat
  begun : Option Begun
  deriving Repr, DecidableEq

/-- The bytes of a text. -/
def encode (text : List Char) : List UInt8 :=
  text.flatMap String.utf8EncodeChar

/--
A character that begins with a given byte.  The bounds on the second byte leave
out the longer spellings of short characters and what is past the last code
point.
-/
def Begun.ofFirst? (byte : UInt8) : Option Begun :=
  let value := byte.toNat
  if 0xC2 ≤ value ∧ value ≤ 0xDF then
    some ⟨byte, 1, 0, 0x80, 0xBF, value - 0xC0⟩
  else if 0xE0 ≤ value ∧ value ≤ 0xEF then
    some ⟨byte, 1, 1, if value = 0xE0 then 0xA0 else 0x80, 0xBF, value - 0xE0⟩
  else if 0xF0 ≤ value ∧ value ≤ 0xF4 then
    some ⟨byte, 1, 2, if value = 0xF0 then 0x90 else 0x80,
      if value = 0xF4 then 0x8F else 0xBF, value - 0xF0⟩
  else
    none

/-- Whether the bytes seen are the first two of a surrogate. -/
def Begun.isSurrogate (begun : Begun) : Bool :=
  begun.first == 0xED && begun.seen == 2 && 0xD800 / 0x40 ≤ begun.bits

/-- The bytes seen as a fault, when the next one is at a position and cannot be taken. -/
def Begun.refused (begun : Begun) (position : Nat) (reason : Utf8Reason) : Malformed :=
  let start := position - begun.seen
  if begun.isSurrogate then
    ⟨begun.first, start, 1, .invalidContinuation⟩
  else
    ⟨begun.first, start, begun.seen, reason⟩

namespace Decoder

/-- Takes one byte; gives a character if the byte completes one. -/
def take (decoder : Decoder) (byte : UInt8) : Except Malformed (Option Char × Decoder) :=
  let next := decoder.position + 1
  match decoder.begun with
  | none =>
      if byte.toNat < 0x80 then
        .ok (some (Char.ofNat byte.toNat), ⟨next, none⟩)
      else
        match Begun.ofFirst? byte with
        | some begun => .ok (none, ⟨next, some begun⟩)
        | none => .error ⟨byte, decoder.position, 1, .invalidStart⟩
  | some begun =>
      if begun.low ≤ byte.toNat ∧ byte.toNat ≤ begun.high ∧ !begun.isSurrogate then
        let bits := begun.bits * 0x40 + (byte.toNat - 0x80)
        match begun.afterNext with
        | 0 => .ok (some (Char.ofNat bits), ⟨next, none⟩)
        | more + 1 =>
            .ok (none, ⟨next, some ⟨begun.first, begun.seen + 1, more, 0x80, 0xBF, bits⟩⟩)
      else
        .error (begun.refused decoder.position .invalidContinuation)

/-- Counts positions anew, from the first byte of a character begun. -/
def rewind (decoder : Decoder) : Decoder :=
  { decoder with position := (decoder.begun.map Begun.seen).getD 0 }

/-- Refuses a text that ends in the middle of a character. -/
def finish (decoder : Decoder) : Except Malformed Unit :=
  match decoder.begun with
  | none => .ok ()
  | some begun => .error (begun.refused decoder.position .unexpectedEnd)

/-- Takes bytes in windows of a size, of which the first is `left` bytes long. -/
def takeAll
    (size left : Nat)
    (decoder : Decoder) :
    List UInt8 → Except Malformed (List Char × Decoder)
  | [] => .ok ([], decoder)
  | byte :: rest =>
      let (current, room) := if left = 0 then (decoder.rewind, size) else (decoder, left)
      match current.take byte with
      | .error malformed => .error malformed
      | .ok (char?, next) =>
          match next.takeAll size (room - 1) rest with
          | .error malformed => .error malformed
          | .ok (chars, final) => .ok (char?.toList ++ chars, final)

end Decoder

/-- The text that bytes are, decoded as a whole. -/
def decode (bytes : List UInt8) : Except Malformed (List Char) := do
  let (chars, final) ← Decoder.takeAll 0 bytes.length ⟨0, none⟩ bytes
  final.finish
  .ok chars

/-- The text that bytes are, decoded as a stream in windows of a size. -/
def decodeStream (size : Nat) (bytes : List UInt8) : Except Malformed (List Char) := do
  let (chars, final) ← Decoder.takeAll size size ⟨0, none⟩ bytes
  final.rewind.finish
  .ok chars

/-- A byte in two hexadecimal digits. -/
def hexByte (byte : UInt8) : String :=
  String.ofList (hex 2 byte.toNat)

/-- The wording of a reason. -/
def Utf8Reason.message : Utf8Reason → String
  | .invalidStart => "invalid start byte"
  | .invalidContinuation => "invalid continuation byte"
  | .unexpectedEnd => "unexpected end of data"

/-- The wording for bytes that are no text. -/
def Malformed.message (malformed : Malformed) : String :=
  let place :=
    if malformed.length = 1 then
      "byte 0x" ++ hexByte malformed.byte ++ " in position " ++ malformed.position.repr
    else
      "bytes in position " ++ malformed.position.repr ++ "-" ++
        (malformed.position + malformed.length - 1).repr
  "'utf-8' codec can't decode " ++ place ++ ": " ++ malformed.reason.message

end MiniLisp.Text
