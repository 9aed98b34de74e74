import Keystore.Proofs.Instant
import Keystore.Proofs.Sink
import Keystore.Proofs.StoreListing

/-!
# Moments in order

A moment is written as its milliseconds, cut off toward zero, in eight bytes that are read in
two's complement (`Der.signedValue`). So moments before 1970 are written too, and the written
numbers stand in the order of the moments, from the earliest that 64 bits count to the latest.

`Der.signedValue_eq` says what the sign comes to, for any number of bytes: one whose highest
bit is set is less by as much as all the bytes can count. With it the bytes of a 64-bit number
are read as that number, whichever way it is cut into words and bytes on the way
(`Der.signedValue_u64`).

`Instant.isWrittenAs_time_monotone` is the result, for a moment that is written by itself, for
two moments, and for the entries of a whole file.
-/

namespace Keystore

/-! ## Numbers with a sign -/

namespace Der

open BigEndian (number number_concat number_cons number_lt)

/-- Bytes and their complement add up to the largest number of as many bytes. -/
theorem number_map_not (s : Bytes) :
    number (s.map (~~~ ·)) + number s + 1 = 256 ^ s.length := by
  induction s using List.reverseRecOn with
  | nil => rfl
  | append_singleton s b ih =>
    have hb := b.toNat_lt
    have hnot : (~~~ b).toNat = 255 - b.toNat := UInt8.toNat_not b
    rw [List.map_append, List.map_singleton, number_concat, number_concat, hnot,
      List.length_append, List.length_singleton, Nat.pow_succ, ← ih]
    omega

/-- The highest bit of the first byte tells whether the number is in the lower half. -/
theorem headD_lt_iff (s : Bytes) : s.headD 0 < 0x80 ↔ 2 * number s < 256 ^ s.length := by
  cases s with
  | nil => decide
  | cons b s =>
    have hrest := number_lt s
    rw [number_cons, List.length_cons, Nat.pow_succ]
    show b.toNat < 128 ↔ _
    -- the rest counts less than the last bit of the first byte
    constructor
    · intro hb
      have hle : b.toNat * 256 ^ s.length ≤ 127 * 256 ^ s.length :=
        Nat.mul_le_mul_right _ (Nat.le_of_lt_succ hb)
      omega
    · intro hlt
      by_contra hb
      have hle : 128 * 256 ^ s.length ≤ b.toNat * 256 ^ s.length :=
        Nat.mul_le_mul_right _ (Nat.le_of_not_lt hb)
      omega

/-- Of the numbers that some bytes can stand for, the upper half stands for those below zero. -/
theorem signedValue_eq (s : Bytes) : signedValue s =
    if 2 * number s < 256 ^ s.length then (number s : Int)
    else (number s : Int) - (256 ^ s.length : Nat) := by
  rw [signedValue]
  by_cases h : s.headD 0 < 0x80
  · rw [if_pos h, if_pos ((headD_lt_iff s).mp h)]
  · rw [if_neg h, if_neg (mt (headD_lt_iff s).mpr h), ← number_map_not s]
    omega

/-- As many bytes stand for a number in one way only, also with a sign. -/
theorem signedValue_inj {s t : Bytes} (hlength : s.length = t.length)
    (h : signedValue s = signedValue t) : s = t := by
  apply BigEndian.number_inj hlength
  have hs := number_lt s
  have ht := number_lt t
  rw [signedValue_eq, signedValue_eq, ← hlength] at h
  rw [← hlength] at ht
  generalize 256 ^ s.length = bound at h hs ht
  split at h <;> split at h <;> omega

/-- The bytes of a 64-bit number, read with a sign. -/
theorem signedValue_u64 (n : UInt64) : signedValue (BigEndian.u64 n) = n.toInt64.toInt := by
  rw [signedValue_eq, BigEndian.number_u64, BigEndian.length_u64]
  exact (BitVec.toInt_eq_toNat_cond n.toBitVec).symm

end Der

/-! ## Moments -/

/-- What is written for a moment: bytes, the numbers on the way to them, and the number that they
stand for. -/
structure Instant.IsWrittenAs (t : Instant) (stamp : Bytes) : Prop where
  /-- The bytes are put behind whatever is in the sink, at any time, and nothing else happens. -/
  write : ∀ sink s, Sink.write (.time t) sink s = (.ok stamp, sink ++ stamp, s)
  length : stamp.length = 8
  /-- The division does not overflow. -/
  quotient : t.millis.toInt = t.nanos.toInt.tdiv 1000000
  /-- Nothing is lost when the sign becomes a bit like the others. -/
  word : t.millis.toUInt64.toInt64 = t.millis
  /-- Nothing is lost when that is cut in halves. -/
  halves : (t.millis.toUInt64 >>> 32).toUInt32.toNat * 2 ^ 32 + t.millis.toUInt64.toUInt32.toNat
    = t.millis.toUInt64.toNat
  /-- The bytes stand for the milliseconds, cut off toward zero. -/
  value : Der.signedValue stamp = t.nanos.toInt.tdiv 1000000
  /-- No other eight bytes stand for them. -/
  unique : ∀ other : Bytes, other.length = 8 →
    Der.signedValue other = Der.signedValue stamp → other = stamp
  /-- What is cut off is less than a millisecond. -/
  near : (t.nanos.toInt - Der.signedValue stamp * 1000000).natAbs < 1000000
  sign : Der.signedValue stamp = 0 ∨ (Der.signedValue stamp).sign = t.nanos.toInt.sign

/-- Writing a moment puts its eight bytes into the sink. -/
theorem Sink.write_time (t : Instant) (sink : Bytes) (s : Supply) :
    write (.time t) sink s = (.ok (Field.time t), sink ++ Field.time t, s) := by
  have hrun : (Writer.item (.time t)).run.run (sink, s) = (.ok (), sink ++ Field.time t, s) :=
    Writer.run_u64 sink s t.millis.toUInt64
  unfold write
  rw [hrun]
  dsimp only
  rw [List.drop_left]

namespace Instant

/-- The eight bytes of a moment stand for its milliseconds. -/
theorem signedValue_time (t : Instant) : Der.signedValue (Field.time t) = t.millis.toInt := by
  rw [Field.time, Der.signedValue_u64, Int64.toInt64_toUInt64]

theorem isWrittenAs_time (t : Instant) : t.IsWrittenAs (Field.time t) where
  write := Sink.write_time t
  length := BigEndian.length_u64 _
  quotient := toInt_millis t
  word := Int64.toInt64_toUInt64 t.millis
  halves := BigEndian.toNat_halves t.millis.toUInt64
  value := (signedValue_time t).trans (toInt_millis t)
  unique other hlength h := Der.signedValue_inj (hlength.trans (BigEndian.length_u64 _).symm) h
  near := by
    rw [signedValue_time]
    exact natAbs_nanos_sub_lt t
  sign := by
    rw [signedValue_time]
    exact sign_millis t

/-- One and a half milliseconds before 1970 are one before it, not two. -/
example : Field.time ⟨-1500000⟩ = List.replicate 8 0xFF := by decide

/-- Of two moments the later one has at least the number of the earlier one. -/
theorem signedValue_time_le {t u : Instant} (h : t.nanos ≤ u.nanos) :
    Der.signedValue (Field.time t) ≤ Der.signedValue (Field.time u) := by
  rw [signedValue_time, signedValue_time]
  exact toInt_millis_le h

end Instant

/-! ## Files -/

/-- The milliseconds that a listed entry has for its moment, with their sign. -/
def ListedEntry.signedMillis : ListedEntry → Int
  | .certificate _ millis _ => millis.toInt64.toInt
  | .key _ millis _ _ => millis.toInt64.toInt

namespace Contents

/-- The moments by which the entries are stamped, in the order of their records: an entry
without one gets the current time. -/
def moments (now : Instant) (c : Contents) : List Instant :=
  c.certificates.map (fun e => e.time.or now) ++ c.keys.map fun e => e.time.or now

/-- A listing shows when the entries are from: the milliseconds of each, cut off toward zero,
and entries in the order of their moments are listed with numbers in that order. -/
structure IsDatedAs (c : Contents) (now : Instant) (listing : Listing) : Prop where
  millis : listing.entries.map ListedEntry.signedMillis
    = (c.moments now).map fun t => t.nanos.toInt.tdiv 1000000
  order : (c.moments now).Pairwise (fun t u => t.nanos ≤ u.nanos) →
    (listing.entries.map ListedEntry.signedMillis).Pairwise (· ≤ ·)

end Contents

/-- What a stamp is read as, with its sign. -/
theorem Instant.toInt_stamp (t now : Instant) :
    (t.stamp now).toInt64.toInt = Der.signedValue (Field.time (t.or now)) := by
  rw [signedValue_time, stamp, Int64.toInt64_toUInt64]

/-- Each listed key has the moment of its entry. -/
theorem KeyEntry.map_signedMillis {passwords : Passwords} {now : Instant} {es : List KeyEntry}
    {listed : List ListedEntry} (h : List.Forall₂ (KeyEntry.IsListed passwords now) es listed) :
    listed.map ListedEntry.signedMillis
      = es.map fun e => Der.signedValue (Field.time (e.time.or now)) := by
  induction h with
  | nil => rfl
  | @cons e _ _ _ hfirst _ ih =>
    cases hfirst
    rw [List.map_cons, List.map_cons, ih, ListedEntry.signedMillis, Instant.toInt_stamp]

namespace Contents

variable {passwords : Passwords} {c : Contents} {s s' : Supply} {file : Bytes}

/-- A written file is read back with the moments of its entries. -/
theorem exists_isDatedAs (h : (c.toFile passwords).run.run s = (.ok file, s')) :
    ∃ listing, Listing.read? (file.take (file.length - 20)) = some listing
      ∧ c.IsDatedAs s.now listing := by
  obtain ⟨hstorable, hrandom, rfl, -⟩ := run_toFile_eq_ok.mp h
  obtain ⟨keys, hread, hkeys⟩ := exists_listing passwords s.now hstorable hrandom
  refine ⟨_, hread, ?_⟩
  have hmillis : (c.certificates.map (CertificateEntry.listed s.now) ++ keys).map
      ListedEntry.signedMillis
      = (c.moments s.now).map fun t => Der.signedValue (Field.time t) := by
    rw [List.map_append, KeyEntry.map_signedMillis hkeys, moments, List.map_append, List.map_map,
      List.map_map, List.map_map]
    congr 1
    exact List.map_congr_left fun e _ => Instant.toInt_stamp e.time s.now
  constructor
  · rw [hmillis]
    exact List.map_congr_left fun t _ => t.isWrittenAs_time.value
  · intro horder
    rw [hmillis]
    exact horder.map _ fun t u => Instant.signedValue_time_le

end Contents

/-- Moments on their way into bytes. Every moment that 64 bits count is written as eight bytes
that stand for its milliseconds, cut off toward zero; of two moments the later one never gets
the smaller number, before 1970 as after it; and so entries in the order of their moments are
in that order in every file that is written. -/
theorem Instant.isWrittenAs_time_monotone :
    (∀ t : Instant, t.IsWrittenAs (Field.time t))
    ∧ (∀ t u : Instant, t.nanos ≤ u.nanos →
      Der.signedValue (Field.time t) ≤ Der.signedValue (Field.time u))
    ∧ ∀ (passwords : Passwords) (c : Contents) (s s' : Supply) (file : Bytes),
      (c.toFile passwords).run.run s = (.ok file, s') →
      ∃ listing, Listing.read? (file.take (file.length - 20)) = some listing
        ∧ c.IsDatedAs s.now listing :=
  ⟨isWrittenAs_time, fun _ _ => signedValue_time_le, fun _ _ _ _ _ => Contents.exists_isDatedAs⟩

/-- The earliest moment of all, one shortly before 1970, and a file with two entries. -/
theorem Instant.isWrittenAs_time_monotone_sample :
    Int64.minValue ≤ (-1500000 : Int64)
    ∧ Der.signedValue (Field.time ⟨Int64.minValue⟩) = -9223372036854
    ∧ Der.signedValue (Field.time ⟨-1500000⟩) = -1
    ∧ Der.signedValue (Field.time ⟨Int64.minValue⟩) ≤ Der.signedValue (Field.time ⟨-1500000⟩)
    ∧ ∃ file s' listing,
      (Contents.sample.toFile Passwords.sample).run.run Supply.sample = (.ok file, s')
        ∧ Listing.read? (file.take (file.length - 20)) = some listing
        ∧ (Contents.sample.moments Supply.sample.now).Pairwise (fun t u => t.nanos ≤ u.nanos)
        ∧ listing.entries.map ListedEntry.signedMillis = [1, 5]
        ∧ (listing.entries.map ListedEntry.signedMillis).Pairwise (· ≤ ·) := by
  obtain ⟨hwritten, hmonotone, hfile⟩ := isWrittenAs_time_monotone
  have hle : Int64.minValue ≤ (-1500000 : Int64) := by decide
  have hrun : (Contents.sample.toFile Passwords.sample).run.run Supply.sample = (.ok _, _) :=
    Contents.run_toFile_eq_ok.mpr ⟨Contents.storable_sample, by decide, rfl, rfl⟩
  obtain ⟨listing, hread, hdated⟩ := hfile _ _ _ _ _ hrun
  have hmoments : (Contents.sample.moments Supply.sample.now).Pairwise
      (fun t u => t.nanos ≤ u.nanos) := by decide
  exact ⟨hle, (hwritten _).value, (hwritten _).value, hmonotone _ _ hle, _, _, listing, hrun,
    hread, hmoments, hdated.millis, hdated.order hmoments⟩

end Keystore
