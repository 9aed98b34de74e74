import Keystore.Proofs.Text
import Mathlib.Algebra.Group.Nat.Defs
import Mathlib.Data.List.TakeWhile

/-!
# How any bytes are split into segments

`Splits gs s` says what it means that `gs` are the segments of the bytes `s`, by the bits of the
bytes and without the reader: a segment is the UTF-8 form of its character, or it is malformed in
one of the ways that `IsMalformed` lists, and stands for U+FFFD. Every string of bytes has
exactly one such splitting, and the reader finds it (`splits_iff`).

The reader's run along one segment is simple, because a first byte announces what follows and
each further byte counts down (`foldl_push_complete`, `foldl_push_partial`). At a byte that continues
nothing it starts afresh, so what stands in front does not matter for what follows
(`segments_append`).
-/

namespace Keystore.Utf8

/-! ## Segments by the bits of their bytes -/

/-- How many bytes have to follow a byte `110xxxxx`, `1110xxxx` or `11110xxx`. Other bytes are not
followed by any: they are a character of their own, or begin none. -/
def announced? (b : UInt8) : Option Nat :=
  if b.toNat / 0x20 = 0b110 then some 1
  else if b.toNat / 0x10 = 0b1110 then some 2
  else if b.toNat / 0x08 = 0b11110 then some 3
  else none

/-- Six bits of each further byte, behind the bits of `n`. -/
def joined (n : Nat) (more : Bytes) : Nat := more.foldl (fun n c => n * 0x40 + c.toNat % 0x40) n

/-- The bits of a sequence of bytes: those of the first byte behind its announcement, and six of
each further one. -/
def bits (b : UInt8) (more : Bytes) : Nat := joined (b.toNat % 2 ^ (6 - more.length)) more

/-- Bytes that are read as one segment in front of `rest`, but are no character. -/
inductive IsMalformed (rest : Bytes) : Bytes → Prop
  /-- A byte that begins no character. -/
  | stray {b : UInt8} (hb : 0x80 ≤ b) (hnone : announced? b = none) : IsMalformed rest [b]
  /-- A sequence cut short by a byte that does not continue it, or by the end. -/
  | cutShort {b : UInt8} {more : Bytes} {n : Nat} (hb : announced? b = some n)
    (hmore : ∀ c ∈ more, isContinuation c = true) (hlength : more.length < n)
    (hrest : ∀ c ∈ rest.head?, isContinuation c = false) : IsMalformed rest (b :: more)
  /-- A sequence for a character that has a shorter one. -/
  | overlong {b : UInt8} {more : Bytes} {c : Char} (hb : announced? b = some more.length)
    (hmore : ∀ c ∈ more, isContinuation c = true) (hbits : bits b more = c.toNat)
    (hshorter : (String.utf8EncodeChar c).length < (b :: more).length) :
    IsMalformed rest (b :: more)
  /-- A sequence for a surrogate. -/
  | surrogate {b : UInt8} {more : Bytes} (hb : announced? b = some more.length)
    (hmore : ∀ c ∈ more, isContinuation c = true)
    (hbits : 0xD800 ≤ bits b more ∧ bits b more < 0xE000) : IsMalformed rest (b :: more)
  /-- A sequence for a number above the last code point. -/
  | tooLarge {b : UInt8} {more : Bytes} (hb : announced? b = some more.length)
    (hmore : ∀ c ∈ more, isContinuation c = true) (hbits : 0x10FFFF < bits b more) :
    IsMalformed rest (b :: more)

/-- A segment in front of `rest`. -/
def IsSegment (rest : Bytes) (g : Segment) : Prop :=
  g.bytes = String.utf8EncodeChar g.char ∨ (g.char = replacement ∧ IsMalformed rest g.bytes)

/-- The segments of a string of bytes, each of which is one in front of what follows. -/
inductive Splits : List Segment → Bytes → Prop
  | nil : Splits [] []
  | cons {g : Segment} {gs : List Segment} {rest : Bytes} (hg : IsSegment rest g)
    (more : Splits gs rest) : Splits (g :: gs) (g.bytes ++ rest)

/-! ## The reader's run -/

theorem begin_done (done : List Segment) (b : UInt8) :
    Scan.begin done b = ⟨(Scan.begin [] b).done ++ done, (Scan.begin [] b).pending⟩ := by
  unfold Scan.begin
  split
  next => rfl
  next => rfl
  next => rfl

theorem extend_done (done : List Segment) (p : Pending) (b : UInt8) :
    Scan.extend done p b = ⟨(Scan.extend [] p b).done ++ done, (Scan.extend [] p b).pending⟩ := by
  unfold Scan.extend
  dsimp only
  split
  next => rfl
  next => rfl

/-- Finished segments are not looked at again. -/
theorem push_done (done : List Segment) (p : Option Pending) (b : UInt8) :
    Scan.push ⟨done, p⟩ b
      = ⟨(Scan.push ⟨[], p⟩ b).done ++ done, (Scan.push ⟨[], p⟩ b).pending⟩ := by
  cases p with
  | none => exact begin_done done b
  | some p =>
    have hpush : ∀ done : List Segment, Scan.push ⟨done, some p⟩ b
        = if isContinuation b then Scan.extend done p b
          else Scan.begin (⟨p.bytes, replacement⟩ :: done) b := fun _ => rfl
    rw [hpush, hpush]
    by_cases h : isContinuation b = true
    · rw [if_pos h, if_pos h]
      exact extend_done done p b
    · rw [if_neg h, if_neg h, begin_done, begin_done [_], List.append_assoc]
      rfl

theorem foldl_push_done (done : List Segment) (p : Option Pending) (s : Bytes) :
    s.foldl Scan.push ⟨done, p⟩
      = ⟨(s.foldl Scan.push ⟨[], p⟩).done ++ done, (s.foldl Scan.push ⟨[], p⟩).pending⟩ := by
  induction s generalizing done p with
  | nil => rfl
  | cons b s ih =>
    rw [List.foldl_cons, List.foldl_cons, push_done done p b, ih, ih (Scan.push ⟨[], p⟩ b).done,
      List.append_assoc]

/-- With nothing pending the rest is read on its own. -/
theorem flush_foldl_push (done : List Segment) (s : Bytes) :
    (s.foldl Scan.push ⟨done, none⟩).flush.reverse = done.reverse ++ segments s := by
  have hflush : ∀ (front : List Segment) (p : Option Pending),
      Scan.flush ⟨front ++ done, p⟩ = Scan.flush ⟨front, p⟩ ++ done := by
    intro front p
    cases p with
    | none => rfl
    | some p => rfl
  rw [foldl_push_done, hflush, List.reverse_append]
  rfl

/-- A byte that continues nothing closes what is pending. -/
theorem flush_foldl_push_of_head (r : Scan) {rest : Bytes}
    (hrest : ∀ c ∈ rest.head?, isContinuation c = false) :
    (rest.foldl Scan.push r).flush = (rest.foldl Scan.push ⟨r.flush, none⟩).flush := by
  cases rest with
  | nil => rfl
  | cons c rest =>
    have hc : isContinuation c = false := hrest c rfl
    have hpush : r.push c = Scan.push ⟨r.flush, none⟩ c := by
      obtain ⟨done, pending⟩ := r
      cases pending with
      | none => rfl
      | some p =>
        show (if isContinuation c then _ else Scan.begin _ c) = _
        rw [hc]
        rfl
    rw [List.foldl_cons, List.foldl_cons, hpush]

/-- Where a segment has to begin, the bytes can be taken apart. -/
theorem segments_append (s : Bytes) {rest : Bytes}
    (hrest : ∀ c ∈ rest.head?, isContinuation c = false) :
    segments (s ++ rest) = segments s ++ segments rest := by
  show ((s ++ rest).foldl Scan.push ⟨[], none⟩).flush.reverse = _
  rw [List.foldl_append, flush_foldl_push_of_head _ hrest, flush_foldl_push]
  rfl

/-- Bytes that are read as one finished segment are the first segment of what begins with them. -/
theorem segments_of_foldl_push {s : Bytes} {g : Segment}
    (h : s.foldl Scan.push ⟨[], none⟩ = ⟨[g], none⟩) (rest : Bytes) :
    segments (s ++ rest) = g :: segments rest := by
  show ((s ++ rest).foldl Scan.push ⟨[], none⟩).flush.reverse = _
  rw [List.foldl_append, h, flush_foldl_push]
  rfl

/-! ## The run along a sequence -/

/-- The least code point that needs `n` bytes behind the first. -/
def least (n : Nat) : Nat := if n = 1 then 0x80 else if n = 2 then 0x800 else 0x10000

/-- The three kinds of bytes that announce others. -/
theorem announced_cases {b : UInt8} {n : Nat} (h : announced? b = some n) :
    n = 1 ∧ b.toNat / 0x20 = 6 ∨ n = 2 ∧ b.toNat / 0x10 = 14 ∨ n = 3 ∧ b.toNat / 0x08 = 30 := by
  unfold announced? at h
  split at h
  next hbyte => exact Or.inl ⟨(Option.some.inj h).symm, hbyte⟩
  next =>
    split at h
    next hbyte => exact Or.inr (Or.inl ⟨(Option.some.inj h).symm, hbyte⟩)
    next =>
      split at h
      next hbyte => exact Or.inr (Or.inr ⟨(Option.some.inj h).symm, hbyte⟩)
      next => exact nomatch h

theorem lead_of_announced {b : UInt8} {n : Nat} (h : announced? b = some n) :
    lead b = .sequence ⟨[b], n, b.toNat % 2 ^ (6 - n), least n⟩ := by
  unfold lead
  simp only [UInt8.lt_iff_toNat_lt, UInt8.reduceToNat]
  rcases announced_cases h with ⟨rfl, hbyte⟩ | ⟨rfl, hbyte⟩ | ⟨rfl, hbyte⟩
  · have hvalue : b.toNat - 0xC0 = b.toNat % 2 ^ (6 - 1) := by omega
    rw [if_neg (by omega), if_neg (by omega), if_pos (by omega), hvalue]
    rfl
  · have hvalue : b.toNat - 0xE0 = b.toNat % 2 ^ (6 - 2) := by omega
    rw [if_neg (by omega), if_neg (by omega), if_neg (by omega), if_pos (by omega), hvalue]
    rfl
  · have hvalue : b.toNat - 0xF0 = b.toNat % 2 ^ (6 - 3) := by omega
    rw [if_neg (by omega), if_neg (by omega), if_neg (by omega), if_neg (by omega),
      if_pos (by omega), hvalue]
    rfl

theorem range_of_announced {b : UInt8} {n : Nat} (h : announced? b = some n) : 1 ≤ n ∧ n ≤ 3 := by
  rcases announced_cases h with ⟨rfl, -⟩ | ⟨rfl, -⟩ | ⟨rfl, -⟩
  · decide
  · decide
  · decide

theorem lead_of_stray {b : UInt8} (hb : 0x80 ≤ b) (hnone : announced? b = none) :
    lead b = .stray := by
  have hhigh : 0x80 ≤ b.toNat := UInt8.le_iff_toNat_le.mp hb
  have hlt := b.toNat_lt
  unfold announced? at hnone
  unfold lead
  simp only [UInt8.lt_iff_toNat_lt, UInt8.reduceToNat]
  split at hnone
  next => exact nomatch hnone
  next h1 =>
    split at hnone
    next => exact nomatch hnone
    next h2 =>
      split at hnone
      next => exact nomatch hnone
      next h3 =>
        rw [if_neg (by omega)]
        by_cases hlow : b.toNat < 0xC0
        · rw [if_pos hlow]
        · rw [if_neg hlow, if_neg (by omega), if_neg (by omega), if_neg (by omega)]

theorem isContinuation_iff {c : UInt8} :
    isContinuation c = true ↔ 0x80 ≤ c.toNat ∧ c.toNat < 0xC0 := by
  unfold isContinuation
  rw [Bool.and_eq_true, decide_eq_true_iff, decide_eq_true_iff, UInt8.le_iff_toNat_le,
    UInt8.lt_iff_toNat_lt]
  rfl

theorem toNat_of_isContinuation {c : UInt8} (h : isContinuation c = true) :
    c.toNat - 0x80 = c.toNat % 0x40 := by
  have hrange := isContinuation_iff.mp h
  omega

/-- Too few bytes leave a sequence pending. -/
theorem foldl_push_partial (done : List Segment) {p : Pending} {more : Bytes}
    (hmore : ∀ c ∈ more, isContinuation c = true) (hlength : more.length < p.missing) :
    more.foldl Scan.push ⟨done, some p⟩
      = ⟨done, some ⟨p.bytes ++ more, p.missing - more.length, joined p.value more, p.least⟩⟩ := by
  induction more generalizing p with
  | nil =>
    rw [List.append_nil]
    rfl
  | cons c more ih =>
    obtain ⟨hc, hmore⟩ := List.forall_mem_cons.mp hmore
    rw [List.length_cons] at hlength
    have hpush : Scan.push ⟨done, some p⟩ c
        = ⟨done, some ⟨p.bytes ++ [c], p.missing - 1, p.value * 0x40 + c.toNat % 0x40,
            p.least⟩⟩ := by
      show (if isContinuation c then Scan.extend done p c else _) = _
      rw [if_pos hc]
      unfold Scan.extend
      dsimp only
      rw [if_neg (by omega), toNat_of_isContinuation hc]
    rw [List.foldl_cons, hpush, ih hmore (by dsimp only; omega), List.length_cons]
    dsimp only
    rw [List.append_assoc, Nat.sub_sub, Nat.add_comm 1]
    rfl

/-- As many bytes as announced complete it. -/
theorem foldl_push_complete (done : List Segment) {p : Pending} {more : Bytes}
    (hmore : ∀ c ∈ more, isContinuation c = true) (hlength : more.length = p.missing)
    (hsome : 1 ≤ p.missing) :
    more.foldl Scan.push ⟨done, some p⟩
      = ⟨⟨p.bytes ++ more, character (joined p.value more) p.least⟩ :: done, none⟩ := by
  rcases List.eq_nil_or_concat more with rfl | ⟨front, c, rfl⟩
  · rw [List.length_nil] at hlength
    omega
  · rw [List.concat_eq_append] at hmore hlength ⊢
    rw [List.length_append, List.length_singleton] at hlength
    have hc : isContinuation c = true := hmore c (by simp)
    have hfront : ∀ c ∈ front, isContinuation c = true :=
      fun c hc => hmore c (List.mem_append_left _ hc)
    have hjoined :
        joined p.value (front ++ [c]) = joined p.value front * 0x40 + c.toNat % 0x40 := by
      unfold joined
      rw [List.foldl_append]
      rfl
    rw [List.foldl_append, foldl_push_partial done hfront (by omega), hjoined]
    show (if isContinuation c then Scan.extend done _ c else _) = _
    rw [if_pos hc]
    unfold Scan.extend
    dsimp only
    rw [if_pos (by omega), toNat_of_isContinuation hc, List.append_assoc]

/-! ## Malformed segments -/

/-- How many bytes the form of a character takes. -/
theorem utf8Size_eq (c : Char) : c.utf8Size
    = if c.toNat < 0x80 then 1 else if c.toNat < 0x800 then 2
      else if c.toNat < 0x10000 then 3 else 4 := by
  have hle : ∀ n : UInt32, c.val ≤ n ↔ c.toNat < n.toNat + 1 := fun n =>
    UInt32.le_iff_toNat_le.trans Nat.lt_succ_iff.symm
  unfold Char.utf8Size
  simp only [hle]
  rfl

/-- A form that is shorter is for a code point that needs fewer bytes. -/
theorem lt_least {c : Char} {n : Nat} (hn : 1 ≤ n ∧ n ≤ 3)
    (h : (String.utf8EncodeChar c).length < n + 1) : c.toNat < least n := by
  rw [String.length_utf8EncodeChar, utf8Size_eq] at h
  unfold least
  split_ifs at h ⊢ <;> omega

/-- Only a code point that needs so many bytes gives a character. -/
theorem character_eq_replacement {value n : Nat}
    (h : value < least n ∨ 0xD800 ≤ value ∧ value < 0xE000 ∨ 0x10FFFF < value) :
    character value (least n) = replacement := by
  unfold character
  rw [if_neg]
  intro hboth
  obtain ⟨hleast, hvalid⟩ := hboth
  have hvalid : value < 0xD800 ∨ 0xDFFF < value ∧ value < 0x110000 := hvalid
  omega

/-- The bytes of a sequence that is complete are read as one segment. -/
theorem foldl_push_sequence {b : UInt8} {more : Bytes} (hb : announced? b = some more.length)
    (hmore : ∀ c ∈ more, isContinuation c = true) :
    (b :: more).foldl Scan.push ⟨[], none⟩
      = ⟨[⟨b :: more, character (bits b more) (least more.length)⟩], none⟩ := by
  rw [List.foldl_cons, push_lead [] (lead_of_announced hb),
    foldl_push_complete [] hmore rfl (range_of_announced hb).1]
  rfl

/-- A segment is read as it is, in front of what follows it. -/
theorem segments_of_isSegment {rest : Bytes} {g : Segment} (h : IsSegment rest g) :
    segments (g.bytes ++ rest) = g :: segments rest := by
  obtain ⟨s, char⟩ := g
  rcases h with hform | ⟨hchar, hmalformed⟩
  · obtain rfl : s = String.utf8EncodeChar char := hform
    exact segments_of_foldl_push (foldl_push_utf8EncodeChar [] char) rest
  · obtain rfl : char = replacement := hchar
    -- a complete sequence is read as U+FFFD if its bits are those of no character
    have hcomplete : ∀ {b : UInt8} {more : Bytes}, announced? b = some more.length →
        (∀ c ∈ more, isContinuation c = true) →
        (bits b more < least more.length ∨ 0xD800 ≤ bits b more ∧ bits b more < 0xE000
          ∨ 0x10FFFF < bits b more) →
        segments (b :: more ++ rest) = ⟨b :: more, replacement⟩ :: segments rest := by
      intro b more hb hmore hbits
      have hread := foldl_push_sequence hb hmore
      rw [character_eq_replacement hbits] at hread
      exact segments_of_foldl_push hread rest
    cases hmalformed with
    | @stray b hb hnone =>
      refine segments_of_foldl_push ?_ rest
      show Scan.begin [] b = _
      unfold Scan.begin
      rw [lead_of_stray hb hnone]
    | @cutShort b more n hb hmore hlength hrest =>
      have hread : segments (b :: more) = [⟨b :: more, replacement⟩] := by
        show ((b :: more).foldl Scan.push ⟨[], none⟩).flush.reverse = _
        rw [List.foldl_cons, push_lead [] (lead_of_announced hb),
          foldl_push_partial [] hmore hlength]
        rfl
      show segments (b :: more ++ rest) = _
      rw [segments_append _ hrest, hread]
      rfl
    | @overlong b more c hb hmore hbits hshorter =>
      refine hcomplete hb hmore (Or.inl ?_)
      rw [hbits]
      exact lt_least (range_of_announced hb) hshorter
    | surrogate hb hmore hbits => exact hcomplete hb hmore (Or.inr (Or.inl hbits))
    | tooLarge hb hmore hbits => exact hcomplete hb hmore (Or.inr (Or.inr hbits))

/-! ## Every string of bytes is split in one way -/

/-- A sequence that is not too long is the form of the character that its bits say. -/
theorem eq_utf8EncodeChar {b : UInt8} {more : Bytes} {c : Char}
    (hb : announced? b = some more.length) (hmore : ∀ c ∈ more, isContinuation c = true)
    (hbits : bits b more = c.toNat)
    (hlong : (b :: more).length ≤ (String.utf8EncodeChar c).length) :
    b :: more = String.utf8EncodeChar c := by
  have hval : c.val.toNat = c.toNat := rfl
  have hbyte := b.toNat_lt
  rw [String.length_utf8EncodeChar, utf8Size_eq, List.length_cons, ← hbits] at hlong
  unfold String.utf8EncodeChar
  dsimp only
  rw [hval, ← hbits]
  -- the code point needs all the bytes, so it is written with as many, and with these bits
  rcases announced_cases hb with ⟨hn, hb⟩ | ⟨hn, hb⟩ | ⟨hn, hb⟩
  · obtain ⟨c1, rfl⟩ := List.length_eq_one_iff.mp hn
    have h1 := isContinuation_iff.mp (hmore c1 (by simp))
    have hvalue : bits b [c1] = b.toNat % 0x20 * 0x40 + c1.toNat % 0x40 := rfl
    rw [hn, hvalue] at hlong
    have hleast : 0x80 ≤ b.toNat % 0x20 * 0x40 + c1.toNat % 0x40 := by
      split_ifs at hlong <;> omega
    rw [hvalue, if_neg (by omega), if_pos (by omega)]
    simp only [List.cons.injEq, ← UInt8.toNat_inj, UInt8.toNat_ofNat', and_true]
    omega
  · obtain ⟨c1, c2, rfl⟩ := List.length_eq_two.mp hn
    have h1 := isContinuation_iff.mp (hmore c1 (by simp))
    have h2 := isContinuation_iff.mp (hmore c2 (by simp))
    have hvalue : bits b [c1, c2]
        = (b.toNat % 0x10 * 0x40 + c1.toNat % 0x40) * 0x40 + c2.toNat % 0x40 := rfl
    rw [hn, hvalue] at hlong
    have hleast : 0x800 ≤ (b.toNat % 0x10 * 0x40 + c1.toNat % 0x40) * 0x40 + c2.toNat % 0x40 := by
      split_ifs at hlong <;> omega
    rw [hvalue, if_neg (by omega), if_neg (by omega), if_pos (by omega)]
    simp only [List.cons.injEq, ← UInt8.toNat_inj, UInt8.toNat_ofNat', and_true]
    omega
  · obtain ⟨c1, c2, c3, rfl⟩ := List.length_eq_three.mp hn
    have h1 := isContinuation_iff.mp (hmore c1 (by simp))
    have h2 := isContinuation_iff.mp (hmore c2 (by simp))
    have h3 := isContinuation_iff.mp (hmore c3 (by simp))
    have hvalue : bits b [c1, c2, c3]
        = ((b.toNat % 0x08 * 0x40 + c1.toNat % 0x40) * 0x40 + c2.toNat % 0x40) * 0x40
          + c3.toNat % 0x40 := rfl
    rw [hn, hvalue] at hlong
    have hleast : 0x10000 ≤ ((b.toNat % 0x08 * 0x40 + c1.toNat % 0x40) * 0x40
        + c2.toNat % 0x40) * 0x40 + c3.toNat % 0x40 := by
      split_ifs at hlong <;> omega
    rw [hvalue, if_neg (by omega), if_neg (by omega), if_neg (by omega)]
    simp only [List.cons.injEq, ← UInt8.toNat_inj, UInt8.toNat_ofNat', and_true]
    omega

theorem exists_char {n : Nat} (h : n.isValidChar) : ∃ c : Char, n = c.toNat :=
  ⟨Char.ofNatAux n h, (UInt32.toNat_ofNatLT ..).symm⟩

/-- A byte below 80 is a character. -/
theorem utf8EncodeChar_ofNat {b : UInt8} (h : b < 0x80) :
    String.utf8EncodeChar (Char.ofNat b.toNat) = [b] := by
  have hlow : b.toNat < 0x80 := UInt8.lt_iff_toNat_lt.mp h
  obtain ⟨c, hc⟩ := exists_char (n := b.toNat) (Or.inl (by omega))
  have hval : c.val.toNat = b.toNat := hc.symm
  rw [hc, Char.ofNat_toNat]
  unfold String.utf8EncodeChar
  dsimp only
  rw [hval, if_pos (by omega), UInt8.ofNat_toNat]

/-- A complete sequence is malformed, or the form of a character. -/
theorem exists_isSegment_of_sequence {b : UInt8} {more : Bytes}
    (hb : announced? b = some more.length) (hmore : ∀ c ∈ more, isContinuation c = true)
    (rest : Bytes) : ∃ char, IsSegment rest ⟨b :: more, char⟩ := by
  by_cases hsurrogate : 0xD800 ≤ bits b more ∧ bits b more < 0xE000
  · exact ⟨_, Or.inr ⟨rfl, .surrogate hb hmore hsurrogate⟩⟩
  · by_cases hlarge : 0x10FFFF < bits b more
    · exact ⟨_, Or.inr ⟨rfl, .tooLarge hb hmore hlarge⟩⟩
    · have hvalid : (bits b more).isValidChar := by
        show bits b more < 0xD800 ∨ 0xDFFF < bits b more ∧ bits b more < 0x110000
        omega
      obtain ⟨c, hc⟩ := exists_char hvalid
      by_cases hshorter : (String.utf8EncodeChar c).length < (b :: more).length
      · exact ⟨_, Or.inr ⟨rfl, .overlong hb hmore hc hshorter⟩⟩
      · exact ⟨c, Or.inl (eq_utf8EncodeChar hb hmore hc (Nat.le_of_not_lt hshorter))⟩

/-- What is there begins with a segment. -/
theorem exists_isSegment (b : UInt8) (s : Bytes) :
    ∃ more rest char, s = more ++ rest ∧ IsSegment rest ⟨b :: more, char⟩ := by
  cases hb : announced? b with
  | none =>
    by_cases hlow : b < 0x80
    · exact ⟨[], s, Char.ofNat b.toNat, rfl, Or.inl (utf8EncodeChar_ofNat hlow).symm⟩
    · exact ⟨[], s, replacement, rfl, Or.inr ⟨rfl, .stray (UInt8.not_lt.mp hlow) hb⟩⟩
  | some n =>
    -- the bytes that continue the first one, but not more than it announces
    by_cases hshort : (s.takeWhile isContinuation).length < n
    · refine ⟨s.takeWhile isContinuation, s.dropWhile isContinuation, replacement,
        List.takeWhile_append_dropWhile.symm, Or.inr ⟨rfl, ?_⟩⟩
      refine .cutShort hb (fun c hc => List.mem_takeWhile_imp hc) hshort ?_
      intro c hc
      have hfirst := List.head?_dropWhile_not isContinuation s
      rw [hc] at hfirst
      exact hfirst
    · have hlength : ((s.takeWhile isContinuation).take n).length = n := by
        rw [List.length_take]
        omega
      have hfront : s.takeWhile isContinuation ++ s.dropWhile isContinuation = s :=
        List.takeWhile_append_dropWhile
      have hmore : ∀ c ∈ (s.takeWhile isContinuation).take n, isContinuation c = true :=
        fun c hc => List.mem_takeWhile_imp (List.mem_of_mem_take hc)
      rw [← hlength] at hb
      obtain ⟨char, hg⟩ := exists_isSegment_of_sequence hb hmore
        ((s.takeWhile isContinuation).drop n ++ s.dropWhile isContinuation)
      refine ⟨_, _, char, ?_, hg⟩
      rw [← List.append_assoc, List.take_append_drop, hfront]

theorem exists_splits (s : Bytes) : ∃ gs, Splits gs s := by
  induction hn : s.length using Nat.strongRecOn generalizing s with
  | ind n ih =>
    cases s with
    | nil => exact ⟨[], .nil⟩
    | cons b s =>
      obtain ⟨more, rest, char, rfl, hg⟩ := exists_isSegment b s
      have hlt : rest.length < n := by
        rw [← hn, List.length_cons, List.length_append]
        omega
      obtain ⟨gs, hgs⟩ := ih _ hlt rest rfl
      exact ⟨_, .cons hg hgs⟩

theorem Splits.eq_segments {gs : List Segment} {s : Bytes} (h : Splits gs s) : gs = segments s := by
  induction h with
  | nil => rfl
  | cons hg _ ih => rw [segments_of_isSegment hg, ih]

/-- The reader finds the only splitting there is. -/
theorem splits_iff {gs : List Segment} {s : Bytes} : Splits gs s ↔ gs = segments s := by
  constructor
  · intro h
    exact h.eq_segments
  · intro h
    obtain ⟨gs', hgs'⟩ := exists_splits s
    rw [h, ← hgs'.eq_segments]
    exact hgs'

/-! ## Single segments -/

theorem length_of_isMalformed {rest s : Bytes} (h : IsMalformed rest s) :
    1 ≤ s.length ∧ s.length ≤ 4 := by
  have hrange : ∀ {b : UInt8} {more : Bytes} {n : Nat}, announced? b = some n → more.length ≤ n →
      1 ≤ (b :: more).length ∧ (b :: more).length ≤ 4 := by
    intro b more n hb hle
    have hn := range_of_announced hb
    rw [List.length_cons]
    omega
  cases h with
  | stray => exact ⟨Nat.le_refl 1, Nat.le_add_left 1 3⟩
  | cutShort hb _ hlength _ => exact hrange hb (Nat.le_of_lt hlength)
  | overlong hb _ _ _ => exact hrange hb (Nat.le_refl _)
  | surrogate hb _ _ => exact hrange hb (Nat.le_refl _)
  | tooLarge hb _ _ => exact hrange hb (Nat.le_refl _)

theorem IsSegment.length {rest : Bytes} {g : Segment} (h : IsSegment rest g) :
    1 ≤ g.bytes.length ∧ g.bytes.length ≤ 4 := by
  rcases h with hform | ⟨-, hmalformed⟩
  · rw [hform, String.length_utf8EncodeChar, utf8Size_eq]
    split_ifs <;> omega
  · exact length_of_isMalformed hmalformed

/-- A segment that is the form of a character stands for it. -/
theorem IsSegment.char_eq {rest : Bytes} {g : Segment} (h : IsSegment rest g) {c : Char}
    (hform : g.bytes = String.utf8EncodeChar c) : g.char = c := by
  have hread := segments_of_isSegment h
  have hother : IsSegment rest ⟨String.utf8EncodeChar c, c⟩ := Or.inl rfl
  rw [hform, segments_of_isSegment hother] at hread
  rw [← (List.cons.inj hread).1]

/-- One that is no character's form stands for U+FFFD. -/
theorem IsSegment.char_eq_replacement {rest : Bytes} {g : Segment} (h : IsSegment rest g)
    (hnone : ∀ c : Char, g.bytes ≠ String.utf8EncodeChar c) : g.char = replacement := by
  rcases h with hform | ⟨hchar, -⟩
  · exact absurd hform (hnone g.char)
  · exact hchar

/-- Each segment is one in front of something. -/
theorem Splits.exists_isSegment {gs : List Segment} {s : Bytes} (h : Splits gs s) {g : Segment}
    (hg : g ∈ gs) : ∃ rest, IsSegment rest g := by
  induction h with
  | nil => exact nomatch hg
  | cons hfirst _ ih =>
    rcases List.mem_cons.mp hg with rfl | hmem
    · exact ⟨_, hfirst⟩
    · exact ih hmem

end Keystore.Utf8
