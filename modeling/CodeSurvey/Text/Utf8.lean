/-
# UTF-8

Bytes of a text and back. A byte sequence is read piece by piece: a piece is a whole character or a
broken sequence, and a broken piece is as long as the longest start of a character that stands
there, one byte at least:

| first byte | second byte | bytes |
| --- | --- | ---: |
| `00` to `7F` | | 1 |
| `C2` to `DF` | `80` to `BF` | 2 |
| `E0` / `E1` to `EC`, `EE`, `EF` / `ED` | from `A0` / any / up to `9F` | 3 |
| `F0` / `F1` to `F3` / `F4` | from `90` / any / up to `8F` | 4 |

Reading strictly stops at the first broken piece, reading leniently drops all of them. A slice of a
text that cuts a character at either end thus reads leniently as the whole characters inside it.

Half of a surrogate pair has no UTF-8 form. A text in which one stands alone holds
another character in its place, one of the last 2048 of all (`standIn`), and is told
apart by the list of these places.
-/

namespace CodeSurvey
namespace Utf8

/-- The UTF-8 encoding of a string. -/
def encode (s : String) : List UInt8 := s.toList.flatMap String.utf8EncodeChar

/-- Why a byte sequence is not UTF-8. -/
inductive Fault
  | invalidStart
  | invalidContinuation
  | unexpectedEnd
  deriving DecidableEq, Repr

/-- The wording of a fault. -/
def Fault.reason : Fault → String
  | .invalidStart => "invalid start byte"
  | .invalidContinuation => "invalid continuation byte"
  | .unexpectedEnd => "unexpected end of data"

/-- What stands at the head of a byte sequence; `more` counts the bytes after the first. -/
inductive Piece
  | whole (c : Char) (more : Nat)
  | broken (fault : Fault) (more : Nat)

/-- The number of bytes after the first. -/
def Piece.more : Piece → Nat
  | whole _ n => n
  | broken _ n => n

/-- The number of continuation bytes that a first byte announces, with the bounds of the first of
them, or `none` when no character starts so. -/
def announced (b : Nat) : Option (Nat × Nat × Nat) :=
  if b < 0xC2 then none
  else if b < 0xE0 then some (1, 0x80, 0xBF)
  else if b = 0xE0 then some (2, 0xA0, 0xBF)
  else if b = 0xED then some (2, 0x80, 0x9F)
  else if b < 0xF0 then some (2, 0x80, 0xBF)
  else if b = 0xF0 then some (3, 0x90, 0xBF)
  else if b < 0xF4 then some (3, 0x80, 0xBF)
  else if b = 0xF4 then some (3, 0x80, 0x8F)
  else none

/-- Reads `owed` more continuation bytes, the next of them between `low` and `high`, after `seen` of
them gave the bits `code`. -/
def continued : (owed seen code low high : Nat) → List UInt8 → Piece
  | 0, seen, code, _, _, _ => .whole (Char.ofNat code) seen
  | _ + 1, seen, _, _, _, [] => .broken .unexpectedEnd seen
  | owed + 1, seen, code, low, high, b :: r =>
    if low ≤ b.toNat ∧ b.toNat ≤ high then
      continued owed (seen + 1) (code * 64 + b.toNat % 64) 0x80 0xBF r
    else .broken .invalidContinuation seen

/-- The piece that starts with the byte `b`. -/
def piece (b : UInt8) (rest : List UInt8) : Piece :=
  if b.toNat < 0x80 then .whole (Char.ofNat b.toNat) 0
  else
    match announced b.toNat with
    | none => .broken .invalidStart 0
    | some (owed, low, high) =>
      continued owed 0 (b.toNat % (if owed = 1 then 32 else if owed = 2 then 16 else 8))
        low high rest

/-- The pieces of a byte sequence. -/
def pieces : List UInt8 → List Piece
  | [] => []
  | b :: r => piece b r :: pieces (r.drop (piece b r).more)
termination_by bs => bs.length
decreasing_by simp only [List.length_drop, List.length_cons]; omega

/-- The text of a byte sequence without its broken pieces. -/
def decodeLenient (bs : List UInt8) : String :=
  String.ofList ((pieces bs).filterMap fun p =>
    match p with
    | .whole c _ => some c
    | .broken .. => none)

/-- Where and why a byte sequence is not UTF-8. -/
structure DecodeError where
  fault : Fault
  first : UInt8
  start : Nat
  size : Nat
  deriving DecidableEq, Repr

/-- Two hexadecimal digits for a byte. -/
def hexByte (b : UInt8) : String :=
  String.ofList [Nat.digitChar (b.toNat / 16), Nat.digitChar (b.toNat % 16)]

/-- The wording of a decoding error; a broken piece of one byte shows the byte. -/
def DecodeError.message (e : DecodeError) : String :=
  if e.size = 1 then
    "'utf-8' codec can't decode byte 0x" ++ hexByte e.first ++ " in position " ++
      toString e.start ++
      ": " ++ e.fault.reason
  else
    "'utf-8' codec can't decode bytes in position " ++ toString e.start ++ "-" ++
      toString (e.start + e.size - 1) ++ ": " ++ e.fault.reason

/-- Reads a byte sequence that starts at byte `offset`, stopping at the first broken piece. -/
def decodeFrom (offset : Nat) : List UInt8 → Except DecodeError (List Char)
  | [] => .ok []
  | b :: r =>
    match piece b r with
    | .whole c more => (decodeFrom (offset + 1 + more) (r.drop more)).map (c :: ·)
    | .broken fault more => .error ⟨fault, b, offset, more + 1⟩
termination_by bs => bs.length
decreasing_by simp only [List.length_drop, List.length_cons]; omega

/-- The text of a byte sequence, if it is UTF-8. -/
def decode (bs : List UInt8) : Except DecodeError String := (decodeFrom 0 bs).map String.ofList

/-- The character that stands in a text for half of a surrogate pair, which is none itself. -/
def standIn (half : Nat) : Char := Char.ofNat (half + 0x102000)

/-- Where halves of surrogate pairs stand alone in a text, and the first of them. -/
structure EncodeError where
  half : Nat
  start : Nat
  size : Nat
  deriving DecidableEq, Repr

/-- The wording of an encoding error; a single half is shown by its code. -/
def EncodeError.message (e : EncodeError) : String :=
  if e.size = 1 then
    "'utf-8' codec can't encode character '\\u" ++ String.ofList (Nat.toDigits 16 e.half) ++
      "' in position " ++ toString e.start ++ ": surrogates not allowed"
  else
    "'utf-8' codec can't encode characters in position " ++ toString e.start ++ "-" ++
      toString (e.start + e.size - 1) ++ ": surrogates not allowed"

/-- How many places of a list follow one on another, from the place before the list on. -/
def runLength (place : Nat) : List Nat → Nat
  | [] => 1
  | next :: more => if next = place + 1 then 1 + runLength next more else 1

/-- Why a text has no UTF-8 form in which halves of surrogate pairs stand alone at some places. -/
def encodeError? (s : String) : (halves : List Nat) → Option EncodeError
  | [] => none
  | place :: more =>
    some ⟨((s.toList[place]?).map fun c => c.toNat - 0x102000).getD 0, place, runLength place more⟩

end Utf8
end CodeSurvey
