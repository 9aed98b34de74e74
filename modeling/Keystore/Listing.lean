import Keystore.Bytes

/-!
# Reading a key store file back

The layout of a file, read from the front: a magic number, a version, the number
of entries, and that many records. A record begins with the number of its kind.
A text has a 16-bit length in front, a blob a 32-bit one, and a chain the number
of its certificates, each of which is a type and a blob.

`Listing.read?` takes a file without its trailer and accepts it only if the
records fill it to the last byte. It knows nothing of how files are written.
-/

namespace Keystore

/-- A certificate with its type. -/
structure TypedCertificate where
  type : Bytes
  der : Bytes
deriving DecidableEq

/-- An entry as it stands in a file. -/
inductive ListedEntry where
  | certificate (name : Bytes) (millis : UInt64) (certificate : TypedCertificate)
  | key (name : Bytes) (millis : UInt64) (blob : Bytes) (chain : List TypedCertificate)
deriving DecidableEq

/-- The contents of a file. -/
structure Listing where
  magic : UInt32
  version : UInt32
  count : UInt32
  entries : List ListedEntry
deriving DecidableEq

namespace Listing

/-- A reader takes something off the front of the bytes, if it is there. -/
abbrev Reader := StateT Bytes Option

/-- The next `n` bytes. -/
def take (n : Nat) : Reader Bytes := fun s =>
  if n ≤ s.length then some (s.take n, s.drop n) else none

/-- A 16-bit number. -/
def u16 : Reader Nat := fun
  | b0 :: b1 :: rest => some (b0.toNat * 256 + b1.toNat, rest)
  | _ => none

/-- A 32-bit number. -/
def u32 : Reader UInt32 := fun
  | b0 :: b1 :: b2 :: b3 :: rest => some (BigEndian.word b0 b1 b2 b3, rest)
  | _ => none

/-- A 64-bit number. -/
def u64 : Reader UInt64 := do
  let high ← u32
  let low ← u32
  return (high.toUInt64 <<< 32) ||| low.toUInt64

/-- A text with its length in front. -/
def text : Reader Bytes := do take (← u16)

/-- A blob with its length in front. -/
def blob : Reader Bytes := do take (← u32).toNat

/-- The same thing `n` times. -/
def times (r : Reader α) : Nat → Reader (List α)
  | 0 => return []
  | n + 1 => do
    let a ← r
    let rest ← times r n
    return a :: rest

/-- A certificate with its type. -/
def certificate : Reader TypedCertificate := do
  let type ← text
  let der ← blob
  return { type, der }

/-- A record. -/
def entry : Reader ListedEntry := do
  let tag ← u32
  let name ← text
  let millis ← u64
  if tag = 2 then
    return .certificate name millis (← certificate)
  else if tag = 1 then
    let key ← blob
    let chain ← times certificate (← u32).toNat
    return .key name millis key chain
  else failure

/-- The contents of a file. -/
def contents : Reader Listing := do
  let magic ← u32
  let version ← u32
  let count ← u32
  let entries ← times entry count.toNat
  return { magic, version, count, entries }

/-- Reads a file without its trailer, which the contents have to fill. -/
def read? (body : Bytes) : Option Listing :=
  match contents.run body with
  | some (listing, []) => some listing
  | _ => none

end Listing

end Keystore
