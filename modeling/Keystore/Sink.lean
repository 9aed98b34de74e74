import Keystore.StoreFile

/-!
# Writing to a sink

Fields and records can also be written one at a time, to the end of a growing
string of bytes. A writer puts its parts there one after the other, and what it
has put there stays, also if it ends in a fault later. So it looks for what could
be wrong before its first part; a record is made apart and put there as a whole.

Notes on the model:
- A sink is a value and not a place in memory, so two sinks never overlap, and there is
  always room at the end of one.
-/

namespace Keystore

/-- Something that can be written. -/
inductive Item where
  | u16 (n : UInt16)
  | u32 (n : UInt32)
  | u64 (n : UInt64)
  | time (t : Instant)
  | text (s : Bytes)
  | length (n : Nat)
  | blob (data : Bytes)
  | certificate (e : CertificateEntry)
  | key (passwords : Passwords) (e : KeyEntry)

/-- A computation that writes to the end of a sink, draws on a supply, and may end
in a fault. -/
abbrev Writer := ExceptT Fault (StateM (Bytes × Supply))

namespace Writer

/-- Puts bytes at the end of the sink. -/
def add (bytes : Bytes) : Writer Unit := modify fun (sink, s) => (sink ++ bytes, s)

/-- Carries out a task, which does not see the sink. -/
def task (t : Task α) : Writer α := do
  let (sink, s) ← get
  let (result, s) := t.run.run s
  set (sink, s)
  liftM result

/-- A 32-bit number. -/
def u32 (n : UInt32) : Writer Unit := add (BigEndian.u32 n)

/-- A 64-bit number, its high half first. -/
def u64 (n : UInt64) : Writer Unit := do
  u32 (n >>> 32).toUInt32
  u32 n.toUInt32

/-- A text with its 16-bit length in front. -/
def text (s : Bytes) : Writer Unit := do
  if Field.textLimit < s.length then throw (.textTooLong s.length)
  add (BigEndian.u16 (UInt16.ofNat s.length))
  add s

/-- A 32-bit length. -/
def length (n : Nat) : Writer Unit := do
  if Field.lengthLimit < n then throw (.lengthTooLarge n)
  u32 (UInt32.ofNat n)

/-- Any bytes with their 32-bit length in front. -/
def blob (data : Bytes) : Writer Unit := do
  length data.length
  add data

/-- Writes an item. -/
def item : Item → Writer Unit
  | .u16 n => add (BigEndian.u16 n)
  | .u32 n => u32 n
  | .u64 n => u64 n
  | .time t => u64 t.millis.toUInt64
  | .text s => text s
  | .length n => length n
  | .blob data => blob data
  | .certificate e => do add (← task e.record)
  | .key passwords e => do add (← task (e.record passwords))

end Writer

namespace Sink

/-- Writes an item: what the sink has gained or why the writing failed, the sink after
it, and the supply after it. -/
def write (item : Item) (sink : Bytes) (s : Supply) : Except Fault Bytes × Bytes × Supply :=
  match (Writer.item item).run.run (sink, s) with
  | (.ok (), after, s) => (.ok (after.drop sink.length), after, s)
  | (.error fault, after, s) => (.error fault, after, s)

/-- Writes items one after the other, past those that cannot be written. -/
def writeAll (items : List Item) (sink : Bytes) (s : Supply) : Bytes × Supply :=
  items.foldl (fun (sink, s) item => (write item sink s).2) (sink, s)

end Sink

end Keystore
