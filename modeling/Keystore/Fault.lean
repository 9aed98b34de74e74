import Keystore.Key.Algorithm

/-!
# Faults

Why a key store could not be written, read or opened. A fault is a cause; its
kind, the entry and the field it concerns, and its wording are functions of it.

Wordings quote names, and a name can hold any byte. What is shown of a wording
ends in front of its first zero byte, as in `Fault.shown`.
-/

namespace Keystore

/-- The kinds of faults. -/
inductive FaultKind where
  | encodingTooLong
  | unsupportedKeyAlgorithm
  | structureMarshalFailure
  | encryptionFailure
  | checksumMismatch
  | malformedInput
deriving DecidableEq, Repr

namespace FaultKind

/-- The kinds in the order of their numbers. -/
def all : List FaultKind :=
  [encodingTooLong, unsupportedKeyAlgorithm, structureMarshalFailure, encryptionFailure,
    checksumMismatch, malformedInput]

/-- The name by which a kind is reported. -/
def name : FaultKind → String
  | encodingTooLong => "EncodingTooLong"
  | unsupportedKeyAlgorithm => "UnsupportedKeyAlgorithm"
  | structureMarshalFailure => "StructureMarshalFailure"
  | encryptionFailure => "EncryptionFailure"
  | checksumMismatch => "ChecksumMismatch"
  | malformedInput => "MalformedInput"

/-- The name of the kind with a given number. -/
def nameOf (number : Int) : String :=
  if number < 0 then "Unknown" else ((all[number.toNat]?).map name).getD "Unknown"

end FaultKind

/-- Why a key store could not be written, read or opened. -/
inductive Fault where
  /-- A text has more bytes than its length field can say. -/
  | textTooLong (size : Nat)
  /-- A length does not fit its field. -/
  | lengthTooLarge (size : Nat)
  /-- There are more entries than can be counted. -/
  | tooManyEntries (count : Nat)
  /-- The alias of an entry does not fit its field. -/
  | aliasTooLong (name : Bytes)
  /-- The key of an entry is missing or of an algorithm that cannot be stored. -/
  | unsupportedKey (name : Bytes) (algorithm : Option Key.Algorithm)
  /-- A key has no private part. -/
  | noPrivatePart
  /-- A salt is not as long as a digest. -/
  | saltSize
  /-- Too few random bytes were left for a salt; `explained` if their source
  said why. -/
  | noRandomness (explained : Bool)
  /-- The key of an entry could not be brought into its stored form. -/
  | keyNotStored (name : Bytes) (cause : Fault)
  /-- A protected key lacks a salt or a check. -/
  | protectedKeyTooShort
  /-- A protected key does not match its check. -/
  | wrongPassword
  /-- A number runs over the end of the data. -/
  | truncatedNumber (offset : Nat)
  /-- A file is too small for a header and a trailer. -/
  | storeTooSmall (size : Nat)
  /-- A timestamp is not a decimal number. -/
  | timestampNotNumber (text : Bytes)
  /-- A timestamp does not fit 64 bits. -/
  | timestampOutOfRange (text : Bytes)
  /-- A timestamp is zero or negative. -/
  | timestampNotPositive (text : Bytes)
deriving DecidableEq

namespace Fault

open Bytes (ascii decimal)

/-- The most bytes of an alias that a message shows. -/
abbrev shownAlias : Nat := 64

/-- An alias in quotes; of a long one the first bytes and the size. -/
def quoted (name : Bytes) : Bytes :=
  if name.length ≤ shownAlias then ascii "\"" ++ name ++ ascii "\""
  else ascii "\"" ++ name.take shownAlias ++ ascii "...\" (" ++ decimal name.length
    ++ ascii " bytes)"

/-- The kind of a fault; a key that could not be stored passes on that of its cause. -/
def kind : Fault → FaultKind
  | textTooLong _ => .encodingTooLong
  | lengthTooLarge _ => .encodingTooLong
  | tooManyEntries _ => .encodingTooLong
  | aliasTooLong _ => .encodingTooLong
  | unsupportedKey _ _ => .unsupportedKeyAlgorithm
  | noPrivatePart => .structureMarshalFailure
  | saltSize => .encryptionFailure
  | noRandomness _ => .encryptionFailure
  | keyNotStored _ cause => cause.kind
  | protectedKeyTooShort => .malformedInput
  | wrongPassword => .checksumMismatch
  | truncatedNumber _ => .malformedInput
  | storeTooSmall _ => .malformedInput
  | timestampNotNumber _ => .malformedInput
  | timestampOutOfRange _ => .malformedInput
  | timestampNotPositive _ => .malformedInput

/-- The alias of the entry that a fault concerns. -/
def entry : Fault → Bytes
  | aliasTooLong name => name
  | unsupportedKey name _ => name
  | keyNotStored name _ => name
  | _ => []

/-- The field of the entry that a fault concerns. -/
def field : Fault → String
  | aliasTooLong _ => "alias"
  | unsupportedKey _ _ => "private key"
  | keyNotStored _ _ => "private key"
  | _ => ""

/-- The wording of a refusal by the source of random bytes. -/
def refusal (explained : Bool) : String :=
  if explained then "RAND_bytes failed (openssl)" else "RAND_bytes failed"

/-- The wording for a text that does not fit its length field. -/
def tooLong (size : Nat) : Bytes := ascii "string too long (" ++ decimal size ++ ascii " bytes)"

/-- The wording of a fault. -/
def message : Fault → Bytes
  | textTooLong size => tooLong size
  | lengthTooLarge size =>
    ascii "length too large for u32 prefix (" ++ decimal size ++ ascii " bytes)"
  | tooManyEntries count => ascii "too many keystore entries: " ++ decimal count
  | aliasTooLong name =>
    ascii "failed to write alias (" ++ tooLong name.length ++ ascii "): " ++ quoted name
  | unsupportedKey name algorithm =>
    ascii "unsupported private key type " ++ ascii (Key.Algorithm.nameOf algorithm)
      ++ ascii " for " ++ quoted name
      ++ ascii " (only RSA is supported)"
  | noPrivatePart => ascii "failed to marshal RSA private key (openssl)"
  | saltSize => ascii "key protector salt must be 20 bytes"
  | noRandomness explained => ascii "key protection failed: " ++ ascii (refusal explained)
  | keyNotStored name cause =>
    ascii "failed to marshal private key for " ++ quoted name ++ ascii ": " ++ cause.message
  | protectedKeyTooShort => ascii "protected key blob too short"
  | wrongPassword => ascii "protected key checksum mismatch (wrong password?)"
  | truncatedNumber offset => ascii "truncated u32 at offset " ++ decimal offset
  | storeTooSmall size =>
    ascii "too small (" ++ decimal size ++ ascii " bytes) for a java key store"
  | timestampNotNumber text => ascii "timestamp is not a number: \"" ++ text ++ ascii "\""
  | timestampOutOfRange text => ascii "timestamp out of range: \"" ++ text ++ ascii "\""
  | timestampNotPositive text =>
    ascii "timestamp must be positive milliseconds since the epoch: " ++ text

/-- The wording as far as it is shown. -/
def shown (f : Fault) : Bytes := f.message.untilNul

end Fault

end Keystore
