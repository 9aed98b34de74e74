import Keystore.Bytes

/-!
# Texts as UTF-8 and UTF-16

A password is a string of bytes that ought to be UTF-8 but need not be, and it
enters every digest as UTF-16. Any bytes are read as UTF-8 from the left in
*segments*: each segment is one well-formed sequence and stands for its
character, or it is something else and stands for U+FFFD. A sequence that breaks
off is a segment of the bytes seen so far, and the byte that broke it starts the
next one, so no byte is skipped or read twice.

The reader is a left fold with at most one sequence under way. That makes
concatenation easy to reason about: where a new segment must start anyway,
reading the two halves apart changes nothing.

`Utf16.ofText` is the form of a password in UTF-16, high byte first and without a
byte order mark. `Utf16.decode?` reads such bytes back and accepts well-formed ones
only: a high surrogate directly in front of a low one, and no surrogate anywhere
else.

Notes on the model:
- One byte is read at a time, where a process looks ahead as far as a sequence goes. Both cut
  the same segments: `IsSegment` says which without either way of reading.
-/

namespace Keystore.Utf8

/-- A run of bytes that is read as one character. -/
structure Segment where
  bytes : Bytes
  char : Char
deriving DecidableEq

/-- What stands for bytes that are no character. -/
def replacement : Char := '\uFFFD'

/-- A byte `10xxxxxx`, which can only continue a sequence. -/
def isContinuation (b : UInt8) : Bool := 0x80 ≤ b && b < 0xC0

/-- A sequence of which the first bytes have been read. -/
structure Pending where
  /-- The bytes read so far. -/
  bytes : Bytes
  /-- How many continuation bytes are still to come. -/
  missing : Nat
  /-- The code point's bits read so far. -/
  value : Nat
  /-- The least code point that needs a sequence of this length. -/
  least : Nat
deriving DecidableEq

/-- What a byte that begins a segment announces. -/
inductive Lead where
  /-- A character of one byte. -/
  | single
  /-- A sequence of more bytes. -/
  | sequence (p : Pending)
  /-- A byte that begins no character. -/
  | stray
deriving DecidableEq

/-- Classifies the first byte of a segment by its leading ones. -/
def lead (b : UInt8) : Lead :=
  if b < 0x80 then .single
  else if b < 0xC0 then .stray
  else if b < 0xE0 then .sequence ⟨[b], 1, b.toNat - 0xC0, 0x80⟩
  else if b < 0xF0 then .sequence ⟨[b], 2, b.toNat - 0xE0, 0x800⟩
  else if b < 0xF8 then .sequence ⟨[b], 3, b.toNat - 0xF0, 0x10000⟩
  else .stray

/-- The character of a complete sequence: its code point, unless that is a
surrogate, lies above U+10FFFF or has a shorter sequence. -/
def character (value least : Nat) : Char :=
  if least ≤ value ∧ value.isValidChar then Char.ofNat value else replacement

/-- The reader's state: the finished segments, latest first, and the sequence
under way. -/
structure Scan where
  done : List Segment
  pending : Option Pending
deriving DecidableEq

/-- Begins a segment with `b`. -/
def Scan.begin (done : List Segment) (b : UInt8) : Scan :=
  match lead b with
  | .single => ⟨⟨[b], Char.ofNat b.toNat⟩ :: done, none⟩
  | .sequence p => ⟨done, some p⟩
  | .stray => ⟨⟨[b], replacement⟩ :: done, none⟩

/-- Adds a continuation byte to the sequence `p`. -/
def Scan.extend (done : List Segment) (p : Pending) (b : UInt8) : Scan :=
  let bytes := p.bytes ++ [b]
  let value := p.value * 64 + (b.toNat - 0x80)
  if p.missing ≤ 1 then ⟨⟨bytes, character value p.least⟩ :: done, none⟩
  else ⟨done, some ⟨bytes, p.missing - 1, value, p.least⟩⟩

/-- Closes a sequence that is cut short. -/
def Scan.flush (s : Scan) : List Segment :=
  match s.pending with
  | none => s.done
  | some p => ⟨p.bytes, replacement⟩ :: s.done

/-- Reads one byte. -/
def Scan.push (s : Scan) (b : UInt8) : Scan :=
  match s.pending with
  | none => Scan.begin s.done b
  | some p => if isContinuation b then Scan.extend s.done p b else Scan.begin s.flush b

/-- The segments of a string of bytes, in order. -/
def segments (s : Bytes) : List Segment :=
  (s.foldl Scan.push ⟨[], none⟩).flush.reverse

/-- The characters of a string of bytes. -/
def decode (s : Bytes) : List Char := (segments s).map Segment.char

/-- Whether a string of bytes is UTF-8: every segment is the form of its character. -/
def isWellFormed (s : Bytes) : Bool :=
  (segments s).all fun g => g.bytes == String.utf8EncodeChar g.char

end Keystore.Utf8

namespace Keystore.Utf16

/-- A 16-bit unit below `2 ^ 16`, the high byte first. -/
def unit (n : Nat) : Bytes := [UInt8.ofNat (n / 256), UInt8.ofNat n]

/-- A character in one unit, or in a surrogate pair above U+FFFF. -/
def encodeChar (c : Char) : Bytes :=
  let n := c.toNat
  if n < 0x10000 then unit n
  else unit (0xD800 + (n - 0x10000) / 0x400) ++ unit (0xDC00 + (n - 0x10000) % 0x400)

/-- Characters in UTF-16BE. -/
def encode (cs : List Char) : Bytes := cs.flatMap encodeChar

/-- A text in UTF-16BE; bytes that are not UTF-8 become U+FFFD. -/
def ofText (s : Bytes) : Bytes := encode (Utf8.decode s)

/-- The unit of two bytes. -/
def unitValue (high low : UInt8) : Nat := high.toNat * 256 + low.toNat

/-- The units that stand one after the other; an incomplete last one is dropped. -/
def units : Bytes → List Nat
  | h :: l :: rest => unitValue h l :: units rest
  | _ => []

/-- Reads well-formed UTF-16BE. -/
def decode? : Bytes → Option (List Char)
  | [] => some []
  | [_] => none
  | h :: l :: rest =>
    let u := unitValue h l
    if u < 0xD800 ∨ 0xE000 ≤ u then (decode? rest).map (Char.ofNat u :: ·)
    else if 0xDC00 ≤ u then none
    else match rest with
      | h2 :: l2 :: rest2 =>
        let v := unitValue h2 l2
        if 0xDC00 ≤ v ∧ v < 0xE000 then
          (decode? rest2).map
            (Char.ofNat (0x10000 + (u - 0xD800) * 0x400 + (v - 0xDC00)) :: ·)
        else none
      | _ => none

end Keystore.Utf16
