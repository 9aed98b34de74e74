import Keystore.Text
import Mathlib.Data.List.Basic

/-!
# Texts are read back

`Utf8.encode` is the UTF-8 form of a row of characters, and the reader of any bytes gives the
characters back (`decode_encode`). A character's form is one segment wherever a segment
may begin: the first byte announces as many bytes as follow and the least code point that
needs them, each further byte adds six bits, and the last one completes the character
(`foldl_push_utf8EncodeChar`). So the reader's run along a text is an induction over its
characters, with nothing pending between two of them.

No byte is lost in reading: the segments of any bytes, put together, are those bytes
(`flatMap_segments`). Bytes that are well-formed UTF-8 are therefore the form of some
characters (`isWellFormed_iff`).

No two texts have one form in UTF-16. `Utf16.decode?` reads back what `Utf16.encode` writes
(`decode?_encode`): a character up to U+FFFF is one unit and no surrogate, and of a pair the
two halves lie in ranges of their own, from which the code point is put together again. So a
row of characters is determined by its form, and a password in UTF-8 by the bytes that it
contributes to a digest (`ofText_inj`).
-/

namespace Keystore.Utf8

/-- Characters in UTF-8. -/
def encode (cs : List Char) : Bytes := cs.flatMap String.utf8EncodeChar

/-! ## Bytes of a character -/

theorem lead_single {n : Nat} (h : n < 0x80) :
    lead (UInt8.ofNat n) = .single ∧ (UInt8.ofNat n).toNat = n := by
  revert n
  decide

/-- The first byte of a sequence announces how many bytes follow. -/
theorem lead_two {n : Nat} (h : n < 0x20) :
    lead (UInt8.ofNat (n + 0xC0)) = .sequence ⟨[UInt8.ofNat (n + 0xC0)], 1, n, 0x80⟩ := by
  revert n
  decide

theorem lead_three {n : Nat} (h : n < 0x10) :
    lead (UInt8.ofNat (n + 0xE0)) = .sequence ⟨[UInt8.ofNat (n + 0xE0)], 2, n, 0x800⟩ := by
  revert n
  decide

theorem lead_four {n : Nat} (h : n < 0x08) :
    lead (UInt8.ofNat (n + 0xF0)) = .sequence ⟨[UInt8.ofNat (n + 0xF0)], 3, n, 0x10000⟩ := by
  revert n
  decide

theorem continuation {n : Nat} (h : n < 0x40) :
    isContinuation (UInt8.ofNat (n + 0x80)) = true
      ∧ (UInt8.ofNat (n + 0x80)).toNat - 0x80 = n := by
  revert n
  decide

/-- A code point that needs a sequence of this length is its own character. -/
theorem character_toNat {c : Char} {least : Nat} (h : least ≤ c.toNat) :
    character c.toNat least = c := by
  unfold character
  rw [if_pos ⟨h, c.valid⟩, Char.ofNat_toNat]

/-! ## Steps of the reader -/

theorem push_single {n : Nat} (done : List Segment) (h : n < 0x80) :
    Scan.push ⟨done, none⟩ (UInt8.ofNat n)
      = ⟨⟨[UInt8.ofNat n], Char.ofNat n⟩ :: done, none⟩ := by
  obtain ⟨hlead, hvalue⟩ := lead_single h
  show Scan.begin done (UInt8.ofNat n) = _
  unfold Scan.begin
  rw [hlead, hvalue]

theorem push_lead {b : UInt8} {p : Pending} (done : List Segment) (h : lead b = .sequence p) :
    Scan.push ⟨done, none⟩ b = ⟨done, some p⟩ := by
  show Scan.begin done b = _
  unfold Scan.begin
  rw [h]

/-- A byte in the middle of a sequence adds six bits. -/
theorem push_more {n : Nat} (done : List Segment) (bytes : Bytes) (missing value least : Nat)
    (h : n < 0x40) :
    Scan.push ⟨done, some ⟨bytes, missing + 2, value, least⟩⟩ (UInt8.ofNat (n + 0x80))
      = ⟨done, some ⟨bytes ++ [UInt8.ofNat (n + 0x80)], missing + 1, value * 64 + n, least⟩⟩ := by
  obtain ⟨hcontinues, hvalue⟩ := continuation h
  show (if isContinuation _ then Scan.extend done _ _ else _) = _
  rw [if_pos hcontinues]
  unfold Scan.extend
  rw [if_neg (by simp), hvalue]
  rfl

/-- The last byte of a sequence completes its character. -/
theorem push_last {n : Nat} (done : List Segment) (bytes : Bytes) (value least : Nat)
    (h : n < 0x40) :
    Scan.push ⟨done, some ⟨bytes, 1, value, least⟩⟩ (UInt8.ofNat (n + 0x80))
      = ⟨⟨bytes ++ [UInt8.ofNat (n + 0x80)], character (value * 64 + n) least⟩ :: done, none⟩ := by
  obtain ⟨hcontinues, hvalue⟩ := continuation h
  show (if isContinuation _ then Scan.extend done _ _ else _) = _
  rw [if_pos hcontinues]
  unfold Scan.extend
  rw [if_pos (Nat.le_refl 1), hvalue]

/-! ## Reading -/

/-- Where a segment may begin, the form of a character is one segment. -/
theorem foldl_push_utf8EncodeChar (done : List Segment) (c : Char) :
    (String.utf8EncodeChar c).foldl Scan.push ⟨done, none⟩
      = ⟨⟨String.utf8EncodeChar c, c⟩ :: done, none⟩ := by
  have hval : c.val.toNat = c.toNat := rfl
  have hrange : c.toNat < 0x110000 := by
    have hvalid : c.toNat < 0xD800 ∨ 0xDFFF < c.toNat ∧ c.toNat < 0x110000 := c.valid
    omega
  unfold String.utf8EncodeChar
  dsimp only
  rw [hval]
  -- the four lengths of a form; in each the bits come together to the code point
  split
  next h1 =>
    rw [List.foldl_cons, push_single done (by omega), Char.ofNat_toNat]
    rfl
  next h1 =>
    split
    next h2 =>
      have hjoin : c.toNat / 64 % 0x20 * 64 + c.toNat % 0x40 = c.toNat := by omega
      rw [List.foldl_cons, push_lead done (lead_two (by omega)), List.foldl_cons,
        push_last _ _ _ _ (by omega), hjoin, character_toNat (by omega)]
      rfl
    next h2 =>
      split
      next h3 =>
        have hjoin : (c.toNat / 4096 % 0x10 * 64 + c.toNat / 64 % 0x40) * 64 + c.toNat % 0x40
            = c.toNat := by omega
        rw [List.foldl_cons, push_lead done (lead_three (by omega)), List.foldl_cons,
          push_more _ _ 0 _ _ (by omega), List.foldl_cons, push_last _ _ _ _ (by omega), hjoin,
          character_toNat (by omega)]
        rfl
      next h3 =>
        have hjoin : ((c.toNat / 262144 % 0x08 * 64 + c.toNat / 4096 % 0x40) * 64
            + c.toNat / 64 % 0x40) * 64 + c.toNat % 0x40 = c.toNat := by omega
        rw [List.foldl_cons, push_lead done (lead_four (by omega)), List.foldl_cons,
          push_more _ _ 1 _ _ (by omega), List.foldl_cons, push_more _ _ 0 _ _ (by omega),
          List.foldl_cons, push_last _ _ _ _ (by omega), hjoin, character_toNat (by omega)]
        rfl

/-- Between two characters nothing is pending. -/
theorem foldl_push_encode (done : List Segment) (cs : List Char) :
    (encode cs).foldl Scan.push ⟨done, none⟩
      = ⟨(cs.map fun c => ⟨String.utf8EncodeChar c, c⟩).reverse ++ done, none⟩ := by
  induction cs generalizing done with
  | nil => rfl
  | cons c cs ih =>
    show (String.utf8EncodeChar c ++ encode cs).foldl Scan.push ⟨done, none⟩ = _
    rw [List.foldl_append, foldl_push_utf8EncodeChar, ih, List.map_cons, List.reverse_cons,
      List.append_assoc]
    rfl

theorem segments_encode (cs : List Char) :
    segments (encode cs) = cs.map fun c => ⟨String.utf8EncodeChar c, c⟩ := by
  unfold segments
  rw [foldl_push_encode, List.append_nil]
  exact List.reverse_reverse _

/-- A text is read back as its characters. -/
theorem decode_encode (cs : List Char) : decode (encode cs) = cs := by
  unfold decode
  rw [segments_encode, List.map_map]
  exact List.map_id cs

/-! ## No byte is lost -/

/-- All bytes that were read so far. -/
def Scan.bytes (s : Scan) : Bytes := s.flush.reverse.flatMap Segment.bytes

theorem bytes_of_lead {b : UInt8} {p : Pending} (h : lead b = .sequence p) : p.bytes = [b] := by
  unfold lead at h
  split_ifs at h <;> cases h <;> rfl

theorem bytes_begin (done : List Segment) (b : UInt8) :
    (Scan.begin done b).bytes = done.reverse.flatMap Segment.bytes ++ [b] := by
  unfold Scan.begin
  split
  next => simp [Scan.bytes, Scan.flush]
  next p h => simp [Scan.bytes, Scan.flush, bytes_of_lead h]
  next => simp [Scan.bytes, Scan.flush]

theorem bytes_extend (done : List Segment) (p : Pending) (b : UInt8) :
    (Scan.extend done p b).bytes = (⟨done, some p⟩ : Scan).bytes ++ [b] := by
  unfold Scan.extend
  dsimp only
  split
  next => simp [Scan.bytes, Scan.flush]
  next => simp [Scan.bytes, Scan.flush]

theorem bytes_push (s : Scan) (b : UInt8) : (s.push b).bytes = s.bytes ++ [b] := by
  obtain ⟨done, pending⟩ := s
  cases pending with
  | none => exact bytes_begin done b
  | some p =>
    show (if isContinuation b then Scan.extend done p b
      else Scan.begin (Scan.flush ⟨done, some p⟩) b).bytes = _
    split
    next => exact bytes_extend done p b
    next => exact bytes_begin _ b

theorem bytes_foldl_push (s : Scan) (bs : Bytes) :
    (bs.foldl Scan.push s).bytes = s.bytes ++ bs := by
  induction bs generalizing s with
  | nil => exact (List.append_nil _).symm
  | cons b bs ih => rw [List.foldl_cons, ih, bytes_push, List.append_assoc, List.singleton_append]

/-- The segments of any bytes, put together, are those bytes. -/
theorem flatMap_segments (bs : Bytes) : (segments bs).flatMap Segment.bytes = bs :=
  bytes_foldl_push ⟨[], none⟩ bs

/-- Bytes are well-formed exactly if they are the form of some characters. -/
theorem isWellFormed_iff {bs : Bytes} : isWellFormed bs = true ↔ ∃ cs, bs = encode cs := by
  unfold isWellFormed
  rw [List.all_eq_true]
  constructor
  · intro h
    have hform : ∀ g ∈ segments bs, g.bytes = String.utf8EncodeChar g.char :=
      fun g hg => eq_of_beq (h g hg)
    refine ⟨decode bs, ?_⟩
    calc bs = (segments bs).flatMap Segment.bytes := (flatMap_segments bs).symm
      _ = (segments bs).flatMap fun g => String.utf8EncodeChar g.char := List.flatMap_congr hform
      _ = encode (decode bs) := (List.flatMap_map _ _ _).symm
  · rintro ⟨cs, rfl⟩ g hg
    rw [segments_encode] at hg
    obtain ⟨c, -, rfl⟩ := List.mem_map.mp hg
    exact beq_self_eq_true _

end Keystore.Utf8

/-! ## UTF-16 -/

namespace Keystore.Utf16

theorem unitValue_unit {n : Nat} (h : n < 0x10000) :
    unitValue (UInt8.ofNat (n / 256)) (UInt8.ofNat n) = n := by
  unfold unitValue
  rw [UInt8.toNat_ofNat', UInt8.toNat_ofNat']
  omega

/-- A unit that is no surrogate is read as a character. -/
theorem decode?_unit {n : Nat} (h : n < 0x10000) (hplain : n < 0xD800 ∨ 0xE000 ≤ n)
    (rest : Bytes) : decode? (unit n ++ rest) = (decode? rest).map (Char.ofNat n :: ·) := by
  show decode? (UInt8.ofNat (n / 256) :: UInt8.ofNat n :: rest) = _
  rw [decode?.eq_def]
  dsimp only
  rw [unitValue_unit h, if_pos hplain]

/-- A high surrogate in front of a low one is read with it, as one character. -/
theorem decode?_pair {high low : Nat} (hhigh : high < 0x400) (hlow : low < 0x400) (rest : Bytes) :
    decode? (unit (0xD800 + high) ++ (unit (0xDC00 + low) ++ rest))
      = (decode? rest).map (Char.ofNat (0x10000 + high * 0x400 + low) :: ·) := by
  show decode? (UInt8.ofNat ((0xD800 + high) / 256) :: UInt8.ofNat (0xD800 + high)
    :: UInt8.ofNat ((0xDC00 + low) / 256) :: UInt8.ofNat (0xDC00 + low) :: rest) = _
  have h1 : unitValue (UInt8.ofNat ((0xD800 + high) / 256)) (UInt8.ofNat (0xD800 + high))
      = 0xD800 + high := unitValue_unit (by omega)
  have h2 : unitValue (UInt8.ofNat ((0xDC00 + low) / 256)) (UInt8.ofNat (0xDC00 + low))
      = 0xDC00 + low := unitValue_unit (by omega)
  rw [decode?.eq_def]
  dsimp only
  rw [h1, h2, if_neg (by omega), if_neg (by omega), if_pos (by omega), Nat.add_sub_cancel_left,
    Nat.add_sub_cancel_left]

/-- A character is read back, whatever follows it. -/
theorem decode?_encodeChar (c : Char) (rest : Bytes) :
    decode? (encodeChar c ++ rest) = (decode? rest).map (c :: ·) := by
  have hvalid : c.toNat < 0xD800 ∨ 0xDFFF < c.toNat ∧ c.toNat < 0x110000 := c.valid
  unfold encodeChar
  dsimp only
  split
  next h =>
    rw [decode?_unit h (by omega), Char.ofNat_toNat]
  next h =>
    have hjoin : 0x10000 + (c.toNat - 0x10000) / 0x400 * 0x400 + (c.toNat - 0x10000) % 0x400
        = c.toNat := by omega
    rw [List.append_assoc, decode?_pair (by omega) (by omega), hjoin, Char.ofNat_toNat]

/-- What was written is read back. -/
theorem decode?_encode (cs : List Char) : decode? (encode cs) = some cs := by
  induction cs with
  | nil => rfl
  | cons c cs ih =>
    show decode? (encodeChar c ++ encode cs) = _
    rw [decode?_encodeChar, ih, Option.map_some]

theorem encode_inj {cs ds : List Char} (h : encode cs = encode ds) : cs = ds := by
  have hread := decode?_encode cs
  rw [h, decode?_encode] at hread
  exact (Option.some.inj hread).symm

/-- Passwords in well-formed UTF-8 that are the same in UTF-16 are the same. -/
theorem ofText_inj {p q : Bytes} (hp : Utf8.isWellFormed p = true)
    (hq : Utf8.isWellFormed q = true) (h : ofText p = ofText q) : p = q := by
  obtain ⟨cs, rfl⟩ := Utf8.isWellFormed_iff.mp hp
  obtain ⟨ds, rfl⟩ := Utf8.isWellFormed_iff.mp hq
  unfold ofText at h
  rw [Utf8.decode_encode, Utf8.decode_encode] at h
  rw [encode_inj h]

end Keystore.Utf16
