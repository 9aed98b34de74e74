import Keystore.StoreFile
import Keystore.Proofs.BigEndian

/-!
# Fields, numbers at offsets, and headers

A field with a length in front either does not fit, or is its length followed by
its bytes. The second half of that, without the question whether it fits, is named
here (`ofText`, `ofLength`, `ofBlob`), so that whole records can be written down as
bytes, and `text_eq`, `length_eq` and `blob_eq` say when the field is that.

A number that is read at an offset is the four bytes that stand there
(`numberAt_of_le`). A file that has room for a header and a trailer therefore always
shows one, with the numbers of its first twelve bytes (`Header.Shows`), and any other
file is refused for its size alone: no number can run over the end of a file that is
long enough (`Header.read_cases`).

At other offsets a read is refused, but for one gap: the end of the number is counted
with 64 bits like the offset. At the last four offsets it goes past what 64 bits count
and starts from zero again, and with as many bytes as that the test finds nothing amiss
(`IsOverlooked`). What is then answered stands for no bytes of the data, and nothing is
said about it here. `numberAt_of_size` is the whole of it, for data of any size that a
64-bit number counts, with the way back: a number that stands between any other bytes
is read as itself.
-/

namespace Keystore.Field

/-- A text behind its length. -/
def ofText (s : Bytes) : Bytes := BigEndian.u16 (UInt16.ofNat s.length) ++ s

/-- A length. -/
def ofLength (n : Nat) : Bytes := BigEndian.u32 (UInt32.ofNat n)

/-- Bytes behind their length. -/
def ofBlob (data : Bytes) : Bytes := ofLength data.length ++ data

theorem text_eq (s : Bytes) :
    text s = if s.length ≤ textLimit then .ok (ofText s) else .error (.textTooLong s.length) := by
  rw [text]
  by_cases h : s.length ≤ textLimit
  · rw [if_neg (Nat.not_lt.mpr h), if_pos h]
    rfl
  · rw [if_pos (Nat.lt_of_not_le h), if_neg h]

theorem length_eq (n : Nat) :
    length n = if n ≤ lengthLimit then .ok (ofLength n) else .error (.lengthTooLarge n) := by
  rw [length]
  by_cases h : n ≤ lengthLimit
  · rw [if_neg (Nat.not_lt.mpr h), if_pos h]
    rfl
  · rw [if_pos (Nat.lt_of_not_le h), if_neg h]

theorem blob_eq (data : Bytes) :
    blob data = if data.length ≤ lengthLimit then .ok (ofBlob data)
      else .error (.lengthTooLarge data.length) := by
  rw [blob, length_eq]
  by_cases h : data.length ≤ lengthLimit
  · rw [if_pos h, if_pos h]
    rfl
  · rw [if_neg h, if_neg h]
    rfl

/-- The number that stands for a length that fits is the length. -/
theorem toNat_ofNat_length {n : Nat} (h : n ≤ lengthLimit) : (UInt32.ofNat n).toNat = n :=
  UInt32.toNat_ofNat_of_lt' (Nat.lt_succ_of_le h)

/-- The number at an offset is written as the four bytes that stand there. -/
theorem numberAt_of_le (offset : Nat) {data : Bytes} (h : offset + 4 ≤ data.length)
    (hsize : offset + 4 < 2 ^ 64) :
    ∃ n, numberAt data (UInt64.ofNat offset) = .ok n
      ∧ BigEndian.u32 n = (data.drop offset).take 4 := by
  have hoffset : ∀ i < 5, (UInt64.ofNat offset + UInt64.ofNat i).toNat = offset + i := by
    intro i hi
    rw [UInt64.toNat_add, UInt64.toNat_ofNat', UInt64.toNat_ofNat']
    omega
  have hbyte : ∀ i < 4, data.getD (UInt64.ofNat offset + UInt64.ofNat i).toNat 0
      = (data.drop offset).getD i 0 := by
    intro i hi
    rw [hoffset i (by omega), List.getD_eq_getElem?_getD, List.getD_eq_getElem?_getD,
      List.getElem?_drop]
  have hend : ¬ data.length < (UInt64.ofNat offset + UInt64.ofNat 4).toNat := by
    rw [hoffset 4 (by omega)]
    omega
  refine ⟨_, if_neg hend, ?_⟩
  · show BigEndian.u32 (BigEndian.word (data.getD (UInt64.ofNat offset + UInt64.ofNat 0).toNat 0)
      (data.getD (UInt64.ofNat offset + UInt64.ofNat 1).toNat 0)
      (data.getD (UInt64.ofNat offset + UInt64.ofNat 2).toNat 0)
      (data.getD (UInt64.ofNat offset + UInt64.ofNat 3).toNat 0)) = _
    rw [hbyte 0 (by omega), hbyte 1 (by omega), hbyte 2 (by omega), hbyte 3 (by omega),
      BigEndian.u32_word]
    have hlength : 4 ≤ (data.drop offset).length := by
      rw [List.length_drop]
      omega
    match data.drop offset, hlength with
    | _ :: _ :: _ :: _ :: _, _ => rfl

end Keystore.Field

/-! ## Reading at any offset -/

namespace Keystore.Field

/-- All four bytes of a number at the offset are there. -/
def IsThere (data : Bytes) (offset : UInt64) : Prop := offset.toNat + 4 ≤ data.length

/-- The end of a number at the offset goes past what 64 bits count, by no more than the
data has bytes. -/
def IsOverlooked (data : Bytes) (offset : UInt64) : Prop :=
  2 ^ 64 ≤ offset.toNat + 4 ∧ offset.toNat + 4 ≤ 2 ^ 64 + data.length

/-- A read is refused for what the data is. -/
def IsRefusedAt (data : Bytes) (offset : UInt64) : Prop :=
  ∃ fault, numberAt data offset = .error fault ∧ fault.kind = .malformedInput

section

variable {data : Bytes} {offset : UInt64}

/-- The end of a number at the offset, as it is counted. -/
theorem toNat_end (offset : UInt64) :
    (offset + 4).toNat = if offset.toNat + 4 < 2 ^ 64 then offset.toNat + 4
      else offset.toNat + 4 - 2 ^ 64 := by
  have hoffset := offset.toNat_lt
  rw [UInt64.toNat_add]
  show (offset.toNat + 4) % 2 ^ 64 = _
  split
  next h => exact Nat.mod_eq_of_lt h
  next h =>
    rw [Nat.mod_eq_sub_mod (Nat.le_of_not_lt h)]
    exact Nat.mod_eq_of_lt (by omega)

/-- What passes the test on the end of the number. -/
theorem end_le_iff :
    (offset + 4).toNat ≤ data.length ↔ IsThere data offset ∨ IsOverlooked data offset := by
  rw [toNat_end, IsThere, IsOverlooked]
  split <;> omega

/-- A number of which a byte is missing can only be overlooked. -/
theorem not_isThere_of_isOverlooked (hsize : data.length < 2 ^ 64)
    (h : IsOverlooked data offset) : ¬ IsThere data offset := by
  have hend := h.1
  rw [IsThere]
  omega

/-- A read is answered or refused, by the end of the number alone. -/
theorem numberAt_cases (data : Bytes) (offset : UInt64) :
    ((offset + 4).toNat ≤ data.length ∧ ∃ n, numberAt data offset = .ok n)
    ∨ (¬ (offset + 4).toNat ≤ data.length
      ∧ numberAt data offset = .error (.truncatedNumber offset.toNat)) := by
  by_cases h : (offset + 4).toNat ≤ data.length
  · exact Or.inl ⟨h, _, if_neg (Nat.not_lt.mpr h)⟩
  · exact Or.inr ⟨h, if_pos (Nat.lt_of_not_le h)⟩

theorem exists_numberAt_iff :
    (∃ n, numberAt data offset = .ok n) ↔ (offset + 4).toNat ≤ data.length := by
  rcases numberAt_cases data offset with ⟨h, hread⟩ | ⟨h, hread⟩
  · exact iff_of_true hread h
  · exact iff_of_false (fun ⟨n, hn⟩ => nomatch hread.symm.trans hn) h

theorem isRefusedAt_iff :
    IsRefusedAt data offset ↔ ¬ (offset + 4).toNat ≤ data.length := by
  rcases numberAt_cases data offset with ⟨h, n, hread⟩ | ⟨h, hread⟩
  · exact iff_of_false (fun ⟨fault, hfault, _⟩ => nomatch hread.symm.trans hfault) (not_not.mpr h)
  · exact iff_of_true ⟨_, hread, rfl⟩ h

/-- Where the four bytes are there, the answer is the number that they stand for. -/
theorem numberAt_of_isThere (hsize : data.length < 2 ^ 64) (h : IsThere data offset) :
    ∃ n, numberAt data offset = .ok n
      ∧ n.toNat = BigEndian.number ((data.drop offset.toNat).take 4) := by
  obtain ⟨n, hread, hbytes⟩ := numberAt_of_le offset.toNat h (Nat.lt_of_le_of_lt h hsize)
  rw [UInt64.ofNat_toNat] at hread
  exact ⟨n, hread, by rw [← hbytes, BigEndian.number_u32]⟩

/-- A number that stands behind some bytes is read at their end. -/
theorem numberAt_append (a b : Bytes) (v : UInt32)
    (hsize : (a ++ BigEndian.u32 v ++ b).length < 2 ^ 64) :
    numberAt (a ++ BigEndian.u32 v ++ b) (UInt64.ofNat a.length) = .ok v := by
  have hlength : a.length + 4 ≤ (a ++ BigEndian.u32 v ++ b).length := by
    rw [List.length_append, List.length_append, BigEndian.length_u32]
    exact Nat.le_add_right _ _
  obtain ⟨n, hread, hbytes⟩ :=
    numberAt_of_le a.length hlength (Nat.lt_of_le_of_lt hlength hsize)
  rw [List.append_assoc, List.drop_left, List.take_left' (BigEndian.length_u32 v)] at hbytes
  rw [hread, BigEndian.u32_inj hbytes]

end

/-- Reading at any offset. It is answered where the four bytes are there, by the number
that they stand for, and refused elsewhere, unless it is overlooked that bytes are
missing; and a number that was written is read back from between any other bytes. -/
theorem numberAt_of_size {data : Bytes} (hsize : data.length < 2 ^ 64) :
    (∀ offset, IsThere data offset →
      ∃ n, numberAt data offset = .ok n
        ∧ n.toNat = BigEndian.number ((data.drop offset.toNat).take 4))
    ∧ (∀ offset, (∃ n, numberAt data offset = .ok n) ↔
      IsThere data offset ∨ IsOverlooked data offset)
    ∧ (∀ offset, IsRefusedAt data offset ↔
      ¬ IsThere data offset ∧ ¬ IsOverlooked data offset)
    ∧ (∀ offset, IsOverlooked data offset → ¬ IsThere data offset)
    ∧ ∀ a v b, data = a ++ BigEndian.u32 v ++ b →
      numberAt data (UInt64.ofNat a.length) = .ok v := by
  refine ⟨fun offset => numberAt_of_isThere hsize, fun offset => ?_, fun offset => ?_,
    fun offset => not_isThere_of_isOverlooked hsize, ?_⟩
  · rw [exists_numberAt_iff, end_le_iff]
  · rw [isRefusedAt_iff, end_le_iff, not_or]
  · intro a v b hdata
    subst hdata
    exact numberAt_append a b v hsize

theorem numberAt_of_size_sample :
    ([0, 1, 2, 3, 4] : Bytes).length < 2 ^ 64 ∧ IsThere [0, 1, 2, 3, 4] 1
      ∧ (∃ n, numberAt [0, 1, 2, 3, 4] 1 = .ok n ∧ n.toNat = 0x01020304)
      ∧ IsRefusedAt [0, 1, 2, 3, 4] 2 ∧ IsRefusedAt [0, 1, 2, 3, 4] 0xFFFFFFFFFFFFFFFB := by
  have hsize : ([0, 1, 2, 3, 4] : Bytes).length < 2 ^ 64 := by decide
  have hthere : IsThere [0, 1, 2, 3, 4] 1 := by
    unfold IsThere
    decide
  obtain ⟨hvalue, -, hrefused, -⟩ := numberAt_of_size hsize
  refine ⟨hsize, hthere, hvalue 1 hthere, (hrefused 2).mpr ?_,
    (hrefused 0xFFFFFFFFFFFFFFFB).mpr ?_⟩
  · unfold IsThere IsOverlooked
    decide
  · unfold IsThere IsOverlooked
    decide

/-- That a read is answered does not say that the four bytes are there: four bytes are not
enough for a number at offset 2⁶⁴ − 4, which is answered. -/
theorem not_isThere_of_numberAt :
    ¬ ∀ (data : Bytes) (offset : UInt64), data.length < 2 ^ 64 →
      ((∃ n, numberAt data offset = .ok n) ↔ IsThere data offset)
        ∧ (IsRefusedAt data offset ↔ ¬ IsThere data offset) := by
  intro hall
  have hread : ∃ n, numberAt [1, 2, 3, 4] 0xFFFFFFFFFFFFFFFC = .ok n :=
    exists_numberAt_iff.mpr (by decide)
  have hthere := (hall [1, 2, 3, 4] 0xFFFFFFFFFFFFFFFC (by decide)).1.mp hread
  revert hthere
  unfold IsThere
  decide

end Keystore.Field

/-! ## The header of a file -/

namespace Keystore

namespace Header

/-- A header gives the first bytes of a file as numbers, and tells the body from the
trailer. -/
structure Shows (h : Header) (file : Bytes) : Prop where
  front : BigEndian.u32 h.magic ++ BigEndian.u32 h.version ++ BigEndian.u32 h.entryCount
    = file.take 12
  bodyLength : h.bodyLength = file.length - 20
  digest : h.digest = file.drop (file.length - 20)

/-- A header is shown or the file is too small; nothing else can happen. -/
theorem read_cases (file : Bytes) :
    file.length < 32 ∧ read file = .error (.storeTooSmall file.length)
      ∨ 32 ≤ file.length ∧ ∃ h, read file = .ok h ∧ h.Shows file := by
  rcases Nat.lt_or_ge file.length 32 with hshort | hlong
  · refine Or.inl ⟨hshort, ?_⟩
    unfold read
    exact if_pos hshort
  · refine Or.inr ⟨hlong, ?_⟩
    obtain ⟨magic, hmagic, hmagicBytes⟩ :=
      Field.numberAt_of_le 0 (by omega : 0 + 4 ≤ file.length) (by omega)
    obtain ⟨version, hversion, hversionBytes⟩ :=
      Field.numberAt_of_le 4 (by omega : 4 + 4 ≤ file.length) (by omega)
    obtain ⟨entryCount, hcount, hcountBytes⟩ :=
      Field.numberAt_of_le 8 (by omega : 8 + 4 ≤ file.length) (by omega)
    refine ⟨⟨magic, version, entryCount, file.length - 20, file.drop (file.length - 20)⟩, ?_, ?_⟩
    · unfold read
      rw [if_neg (show ¬ file.length < size + Sha1.size from Nat.not_lt.mpr hlong)]
      show (Field.numberAt file (UInt64.ofNat 0) >>= fun magic => _) = _
      rw [hmagic]
      show (Field.numberAt file (UInt64.ofNat 4) >>= fun version => _) = _
      rw [hversion]
      show (Field.numberAt file (UInt64.ofNat 8) >>= fun entryCount => _) = _
      rw [hcount]
      rfl
    · constructor
      · rw [hmagicBytes, hversionBytes, hcountBytes, List.drop_zero, ← List.take_add,
          ← List.take_add]
      · rfl
      · rfl

/-- A file that begins as files are written shows the numbers that were written. -/
theorem Shows.of_bytes {h : Header} {count : Nat} {rest : Bytes}
    (hshows : h.Shows (bytes count ++ rest)) :
    h.magic = magicNumber ∧ h.version = formatVersion ∧ h.entryCount = UInt32.ofNat count := by
  have hfront : BigEndian.u32 h.magic ++ BigEndian.u32 h.version ++ BigEndian.u32 h.entryCount
      = BigEndian.u32 magicNumber ++ BigEndian.u32 formatVersion
        ++ BigEndian.u32 (UInt32.ofNat count) := hshows.front.trans (List.take_left' rfl)
  obtain ⟨hnumbers, hcount⟩ := List.append_inj hfront rfl
  obtain ⟨hmagic, hversion⟩ := List.append_inj hnumbers rfl
  exact ⟨BigEndian.u32_inj hmagic, BigEndian.u32_inj hversion, BigEndian.u32_inj hcount⟩

/-- Whether magic number and version are those of a key store file, the first eight bytes
tell. -/
theorem Shows.magicOk_and_versionOk_iff {h : Header} {file : Bytes} (hshows : h.Shows file) :
    h.magicOk = true ∧ h.versionOk = true
      ↔ file.take 8 = [0xFE, 0xED, 0xFE, 0xED, 0, 0, 0, 2] := by
  have hfront : file.take 8 = BigEndian.u32 h.magic ++ BigEndian.u32 h.version := by
    have htake : (file.take 12).take 8 = file.take 8 := by
      rw [List.take_take]
      rfl
    rw [← htake, ← hshows.front]
    exact List.take_left' rfl
  have hwritten : [0xFE, 0xED, 0xFE, 0xED, 0, 0, 0, 2]
      = BigEndian.u32 magicNumber ++ BigEndian.u32 formatVersion := by decide
  rw [hfront, hwritten, magicOk, versionOk, beq_iff_eq, beq_iff_eq]
  refine ⟨fun ⟨hmagic, hversion⟩ => ?_, fun hbytes => ?_⟩
  · rw [hmagic, hversion]
  · obtain ⟨hmagic, hversion⟩ := List.append_inj hbytes rfl
    exact ⟨BigEndian.u32_inj hmagic, BigEndian.u32_inj hversion⟩

end Header

end Keystore
