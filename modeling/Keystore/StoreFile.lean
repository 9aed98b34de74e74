import Keystore.Instant
import Keystore.Key
import Keystore.KeyProtector
import Keystore.Supply

/-!
# Key store files

A key store holds certificates that are trusted and private keys (`Contents`). Its
file is a header, the records of the certificates, the records of the keys, and a
trailer: a digest over the store password, a fixed phrase and everything in front
of the digest. Whoever does not know the password can neither produce the trailer
nor check it.

Writing goes through stages in this order and gives a notice at each step
(`Contents.toFile`). At the first fault it ends without a file, with the notice that
the current stage failed.

Notes on the model:
- The parts of a file are values that are put together at the end. `Sink` has the other
  form, in which each writer puts its parts at the end of a growing row of bytes.
- Where writing fails there is no file, and so nothing of one has to be wiped from memory.
- `Field.numberAt` counts a byte that the data does not have as zero. A process that reads
  there finds whatever stands behind the data in its memory; no theorem says what is read.
- Sizes are numbers without a bound. Keys whose encoding takes 2 GiB or more, which a process
  measures with a signed 32-bit number, are outside the model.
-/

/-! ## Fields

A file is made of fields: numbers of fixed size, texts and blobs with their
length in front, and moments in milliseconds. A length that its field cannot
hold is a fault, and then no part of the field comes about. -/

namespace Keystore.Field

/-- The longest text, in bytes. -/
abbrev textLimit : Nat := 0xFFFF

/-- The largest length of a blob or a list. -/
abbrev lengthLimit : Nat := 0xFFFFFFFF

/-- A moment: its milliseconds as a signed 64-bit number. -/
def time (t : Instant) : Bytes := BigEndian.u64 t.millis.toUInt64

/-- A text with its 16-bit length in front. -/
def text (s : Bytes) : Except Fault Bytes :=
  if textLimit < s.length then .error (.textTooLong s.length)
  else .ok (BigEndian.u16 (UInt16.ofNat s.length) ++ s)

/-- A 32-bit length. -/
def length (n : Nat) : Except Fault Bytes :=
  if lengthLimit < n then .error (.lengthTooLarge n)
  else .ok (BigEndian.u32 (UInt32.ofNat n))

/-- Any bytes with their 32-bit length in front. -/
def blob (data : Bytes) : Except Fault Bytes :=
  (length data.length).map (· ++ data)

/-- Reads the 32-bit number at an offset. Offsets are 64-bit numbers, and so is
the end of the field that is compared with the size of the data; a byte that the
data does not have counts as zero. -/
def numberAt (data : Bytes) (offset : UInt64) : Except Fault UInt32 :=
  let byte (i : UInt64) : UInt8 := data.getD (offset + i).toNat 0
  if data.length < (offset + 4).toNat then .error (.truncatedNumber offset.toNat)
  else .ok (BigEndian.word (byte 0) (byte 1) (byte 2) (byte 3))

end Keystore.Field

/-! ## The header

A file begins with a magic number, the version of the format and the number of
entries. They are reported even where they are wrong, so that a reader can see
what kind of file it is. -/

namespace Keystore

/-- What can be seen of a file without its password. -/
structure Header where
  magic : UInt32
  version : UInt32
  entryCount : UInt32
  /-- The number of bytes in front of the trailer. -/
  bodyLength : Nat
  /-- The trailer. -/
  digest : Bytes
deriving DecidableEq

namespace Header

/-- The number that a key store file begins with. -/
abbrev magicNumber : UInt32 := 0xFEEDFEED

/-- The version of the format that is written. -/
abbrev formatVersion : UInt32 := 2

/-- The number of bytes in a header. -/
abbrev size : Nat := 12

/-- The header of a file with `count` entries. -/
def bytes (count : Nat) : Bytes :=
  BigEndian.u32 magicNumber ++ BigEndian.u32 formatVersion ++ BigEndian.u32 (UInt32.ofNat count)

/-- Whether a file is a key store file at all. -/
def magicOk (h : Header) : Bool := h.magic == magicNumber

/-- Whether its version is the one that is written. -/
def versionOk (h : Header) : Bool := h.version == formatVersion

/-- Reads the header of a file, which has to have room for a trailer too. -/
def read (file : Bytes) : Except Fault Header :=
  if file.length < size + Sha1.size then .error (.storeTooSmall file.length)
  else do
    let magic ← Field.numberAt file 0
    let version ← Field.numberAt file 4
    let entryCount ← Field.numberAt file 8
    let bodyLength := file.length - Sha1.size
    return { magic, version, entryCount, bodyLength, digest := file.drop bodyLength }

end Header

end Keystore

/-! ## What a key store holds

Two kinds of entries: certificates that are trusted, and private keys with the
chain of certificates for them. Each has an alias, which need not be unique, and
a moment. Every key is protected by a password: its own if its alias has one,
else the password of the store. -/

namespace Keystore

/-- A trusted certificate. -/
structure CertificateEntry where
  /-- The alias. -/
  name : Bytes
  time : Instant
  /-- The certificate in DER. -/
  der : Bytes
deriving DecidableEq

/-- A private key. -/
structure KeyEntry where
  /-- The alias. -/
  name : Bytes
  time : Instant
  /-- The key, if there is one. -/
  key : Option Key
  /-- The certificates in DER, that of the key itself first. -/
  chain : List Bytes
deriving DecidableEq

/-- The entries of a key store. In a file the certificates come first. -/
structure Contents where
  certificates : List CertificateEntry
  keys : List KeyEntry
deriving DecidableEq

/-- The passwords of a key store, in UTF-8. -/
structure Passwords where
  /-- The password of the file, which also protects keys without one of their own. -/
  store : Bytes
  /-- Passwords for keys by alias; of several for one alias the last counts. -/
  own : List (Bytes × Bytes)
deriving DecidableEq

/-- The password that protects the keys with the given alias. -/
def Passwords.forKey (p : Passwords) (name : Bytes) : Bytes :=
  ((p.own.reverse.find? fun (owner, _) => owner == name).map Prod.snd).getD p.store

/-- The number of entries. -/
def Contents.size (c : Contents) : Nat := c.certificates.length + c.keys.length

end Keystore

/-! ## Entries as records

In a file each entry is a record: a number for its kind, the alias, the moment,
and then either the certificate, or the protected key and its chain. A record
comes about as a whole or not at all.

The fields are made in the order in which they stand, and the first that cannot
be made decides the fault. An entry without a moment gets the current time. Only
RSA keys with a private part can be stored, and each takes one salt. -/

namespace Keystore

namespace Record

/-- The number of a record with a private key. -/
abbrev keyTag : UInt32 := 1

/-- The number of a record with a trusted certificate. -/
abbrev certificateTag : UInt32 := 2

/-- The type that is written in front of each certificate. -/
def certificateType : Bytes := Bytes.ascii "X.509"

/-- The field for an alias. -/
def nameField (name : Bytes) : Except Fault Bytes :=
  (Field.text name).mapError fun _ => .aliasTooLong name

/-- The field for the moment of an entry; the current time if it has none. -/
def timeField (name : Bytes) (time : Instant) : Task Bytes := do
  if time = .unset then
    Task.note (.clockUsed name)
    return Field.time (← Task.now)
  else return Field.time time

/-- The fields for a certificate: its type and its bytes. -/
def certificateField (der : Bytes) : Except Fault Bytes := do
  let type ← Field.text certificateType
  let body ← Field.blob der
  return type ++ body

/-- Protects data with a fresh salt. -/
def protectData (password plain : Bytes) : Task Bytes := do
  let salt ← Task.salt KeyProtector.saltSize
  KeyProtector.protect password salt plain

/-- The field for a key of a storable kind. -/
def protectedField (password : Bytes) (kind : Key.Storable) (key : Key) : Task Bytes := do
  let plain ← key.frame kind
  let blob ← protectData password plain
  Field.blob (Key.protectedInfo blob)

/-- The field for the key of an entry. -/
def keyField (passwords : Passwords) (e : KeyEntry) : Task Bytes :=
  match e.key.bind fun key => key.storable?.map fun kind => (key, kind) with
  | some (key, kind) =>
    Task.blame (.keyNotStored e.name) (protectedField (passwords.forKey e.name) kind key)
  | none => throw (.unsupportedKey e.name (e.key.map Key.algorithm))

/-- The fields for a chain: the number of certificates, and each of them. -/
def chainField (chain : List Bytes) : Except Fault Bytes := do
  let count ← Field.length chain.length
  let certificates ← chain.mapM certificateField
  return count ++ certificates.flatten

end Record

/-- The record of a trusted certificate. -/
def CertificateEntry.record (e : CertificateEntry) : Task Bytes := do
  let name ← Record.nameField e.name
  let time ← Record.timeField e.name e.time
  let certificate ← Record.certificateField e.der
  return BigEndian.u32 Record.certificateTag ++ name ++ time ++ certificate

/-- The record of a private key. -/
def KeyEntry.record (passwords : Passwords) (e : KeyEntry) : Task Bytes := do
  let name ← Record.nameField e.name
  let time ← Record.timeField e.name e.time
  let key ← Record.keyField passwords e
  if e.chain = [] then Task.note (.emptyChain e.name)
  let chain ← Record.chainField e.chain
  return BigEndian.u32 Record.keyTag ++ name ++ time ++ key ++ chain

end Keystore

/-! ## The trailer -/

namespace Keystore.Trailer

/-- The phrase between the password and the contents. -/
def phrase : Bytes := Bytes.ascii "Mighty Aphrodite"

/-- The trailer of a file with the given body. -/
def make (password body : Bytes) : Bytes :=
  Sha1.digest (Utf16.ofText password ++ (phrase ++ body))

/-- A file's body and its last bytes, which should be its trailer. -/
def split (file : Bytes) : Bytes × Bytes := file.splitAt (file.length - Sha1.size)

/-- Whether a file ends in its trailer under a password. -/
def isValid (password file : Bytes) : Bool :=
  Sha1.size ≤ file.length && make password (split file).1 == (split file).2

end Keystore.Trailer

/-! ## The file -/

namespace Keystore.Contents

/-- The most entries that the header can count. -/
abbrev entryLimit : Nat := 0xFFFFFFFF

/-- The header, if the entries can be counted. -/
def headerField (c : Contents) : Except Fault Bytes :=
  if entryLimit < c.size then .error (.tooManyEntries c.size) else .ok (Header.bytes c.size)

/-- The file that holds the entries under the given passwords. -/
def toFile (passwords : Passwords) (c : Contents) : Task Bytes := do
  Task.note (.moved .start .header)
  let header ← Task.during .header (liftM c.headerField)
  Task.note (.moved .header .certs)
  let certificates ← Task.during .certs (c.certificates.mapM CertificateEntry.record)
  Task.note (.moved .certs .keypairs)
  let keys ← Task.during .keypairs (c.keys.mapM (KeyEntry.record passwords))
  Task.note (.moved .keypairs .digest)
  let body := header ++ certificates.flatten ++ keys.flatten
  let file := body ++ Trailer.make passwords.store body
  Task.note (.moved .digest .done)
  Task.note (.written c.certificates.length c.keys.length file.length)
  return file

end Keystore.Contents
