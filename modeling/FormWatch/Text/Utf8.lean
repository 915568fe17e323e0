import FormWatch.Text.Basic

/-!
UTF-8. Bytes are cut into pieces, each a character or a faulty run (`Utf8.pieces`). A faulty run is
as long as the longest beginning of a character it holds, and at least one byte.

Strict decoding stops at the first faulty run; lenient decoding puts U+FFFD in its place.
-/

namespace FormWatch

abbrev Bytes := List UInt8

namespace Utf8

def encode (text : Text) : Bytes :=
  text.flatMap String.utf8EncodeChar

/-- Why bytes are no character. -/
inductive Reason where
  -- No character starts with this byte.
  | start
  -- A byte that continues a character is missing.
  | continuation
  -- The bytes end within a character.
  | truncated
  deriving DecidableEq, Repr

/-- What a first byte asks for: how many bytes follow, the bounds of the first of these, and the
bits that the byte itself gives. -/
structure Lead where
  following : Nat
  low : Nat
  high : Nat
  bits : Nat

/-- The continuation that a first byte asks for. Overlong forms, surrogates and code points above
U+10FFFF are shut out by the bounds of the second byte. -/
def lead? (byte : Nat) : Option Lead :=
  if byte < 0x80 then some ⟨0, 0, 0, byte⟩
  else if byte < 0xc2 then none
  else if byte < 0xe0 then some ⟨1, 0x80, 0xbf, byte - 0xc0⟩
  else if byte = 0xe0 then some ⟨2, 0xa0, 0xbf, 0⟩
  else if byte = 0xed then some ⟨2, 0x80, 0x9f, 0xd⟩
  else if byte < 0xf0 then some ⟨2, 0x80, 0xbf, byte - 0xe0⟩
  else if byte = 0xf0 then some ⟨3, 0x90, 0xbf, 0⟩
  else if byte < 0xf4 then some ⟨3, 0x80, 0xbf, byte - 0xf0⟩
  else if byte = 0xf4 then some ⟨3, 0x80, 0x8f, 4⟩
  else none

/-- The code point completed by `following` more bytes, the first of them between bounds, and how
many bytes could be taken. -/
def complete (following low high code : Nat) : Bytes → Except Reason Nat × Nat
  | [] => if following = 0 then (.ok code, 0) else (.error .truncated, 0)
  | byte :: rest =>
    match following with
    | 0 => (.ok code, 0)
    | more + 1 =>
      if low ≤ byte.toNat ∧ byte.toNat ≤ high then
        let (answer, taken) := complete more 0x80 0xbf (code * 64 + (byte.toNat - 0x80)) rest
        (answer, taken + 1)
      else (.error .continuation, 0)

/-- What stands at a byte: a character or a fault, and how many bytes after the first belong to
it. -/
def extent (byte : UInt8) (rest : Bytes) : Except Reason Char × Nat :=
  match lead? byte.toNat with
  | none => (.error .start, 0)
  | some lead =>
    let (answer, taken) := complete lead.following lead.low lead.high lead.bits rest
    (answer.map Char.ofNat, taken)

structure Piece where
  content : Except Reason Char
  bytes : Bytes

/-- Bytes cut into characters and faulty runs. -/
def pieces : Bytes → List Piece
  | [] => []
  | byte :: rest =>
    let (content, more) := extent byte rest
    ⟨content, byte :: rest.take more⟩ :: pieces (rest.drop more)
  termination_by bytes => bytes.length

/-- The first faulty run of some bytes. -/
structure Fault where
  reason : Reason
  position : Nat
  bytes : Bytes
  deriving DecidableEq, Repr

/-- The text of pieces that begin at a position, if all are characters. -/
def textOf (position : Nat) : List Piece → Except Fault Text
  | [] => .ok []
  | piece :: rest =>
    match piece.content with
    | .error reason => .error ⟨reason, position, piece.bytes⟩
    | .ok c => (textOf (position + piece.bytes.length) rest).map (c :: ·)

def decode (bytes : Bytes) : Except Fault Text :=
  textOf 0 (pieces bytes)

/-- The text that bytes stand for, with U+FFFD in the place of each faulty run. -/
def decodeLenient (bytes : Bytes) : Text :=
  (pieces bytes).map fun piece => piece.content.toOption.getD '\ufffd'

def Reason.message : Reason → Text
  | start => "invalid start byte".toList
  | continuation => "invalid continuation byte".toList
  | truncated => "unexpected end of data".toList

def Fault.message (fault : Fault) : Text :=
  let place :=
    match fault.bytes with
    | [byte] =>
      "byte 0x".toList ++ Text.hex 2 byte.toNat ++ " in position ".toList ++
        Text.ofNat fault.position
    | bytes =>
      "bytes in position ".toList ++ Text.ofNat fault.position ++
        '-' :: Text.ofNat (fault.position + bytes.length - 1)
  "'utf-8' codec can't decode ".toList ++ place ++ ": ".toList ++ fault.reason.message

end Utf8

end FormWatch
