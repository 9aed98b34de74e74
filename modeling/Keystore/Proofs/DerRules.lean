import Keystore.Proofs.Der
import Mathlib.Data.List.Induction

/-!
# From the distinguished rules to the basic ones

What can be read by the distinguished rules can be read by the basic ones, with the same
result, and whatever stands behind it (`read?_basic`, `readAll?_basic`). So one who reads
by the basic rules need not know that a text is distinguished.

Conversely what was read by the distinguished rules is what would be written
(`raw_of_read?`): the rules leave no choice, because a length has as few digits as possible and
digits without a leading zero are those of their number (`digits_number`).
-/

namespace Keystore.Der

open BigEndian (number)

/-! ## Numbers -/

/-- Digits without a leading zero are those of their number. -/
theorem digits_number {s : Bytes} (hs : s ≠ []) (hhead : s.head? ≠ some 0) :
    digits (number s) = s := by
  induction s using List.reverseRecOn with
  | nil => exact absurd rfl hs
  | append_singleton s b ih =>
    have hb := b.toNat_lt
    have hlast : ∀ n, UInt8.ofNat (n * 256 + b.toNat) = b := by
      intro n
      apply UInt8.toNat_inj.mp
      rw [UInt8.toNat_ofNat']
      omega
    rw [BigEndian.number_concat]
    rcases s with _ | ⟨a, s⟩
    · rw [digits, if_pos (by show 0 * 256 + b.toNat < 256; omega)]
      exact congrArg (· :: []) (hlast 0)
    · have hfront := ih (List.cons_ne_nil a s) hhead
      have hpos : 0 < number (a :: s) := by
        -- the digits of zero are a zero
        apply Nat.pos_of_ne_zero
        intro hzero
        rw [hzero, digits, if_pos (by decide)] at hfront
        obtain ⟨rfl, -⟩ := List.cons.inj hfront
        exact hhead rfl
      rw [digits, if_neg (by omega), hlast, show (number (a :: s) * 256 + b.toNat) / 256
        = number (a :: s) by omega, hfront]

/-- A number to the base 128 is read the same with more behind it. -/
theorem readArc?_append {n v k : Nat} {s rest : Bytes} (h : readArc? n s = some (v, k, rest))
    (t : Bytes) : readArc? n (s ++ t) = some (v, k, rest ++ t) := by
  induction s generalizing n v k with
  | nil => cases h
  | cons b s ih =>
    rw [readArc?] at h
    rw [List.cons_append, readArc?]
    split at h
    next hlast =>
      obtain ⟨rfl, rfl, rfl⟩ : _ ∧ _ ∧ _ := by simpa only [Option.some.injEq, Prod.mk.injEq] using h
      rw [if_pos hlast]
    next hmore =>
      rw [if_neg hmore]
      dsimp only at h ⊢
      split at h
      next hlimit =>
        obtain ⟨⟨v', k', s'⟩, hread, heq⟩ := Option.map_eq_some_iff.mp h
        obtain ⟨rfl, rfl, rfl⟩ : _ ∧ _ ∧ _ := by simpa only [Prod.mk.injEq] using heq
        rw [if_pos hlimit, ih hread]
        rfl
      next => cases h

theorem exists_of_readArc? {n v k : Nat} {s rest : Bytes} (h : readArc? n s = some (v, k, rest)) :
    ∃ front, s = front ++ rest ∧ front.length = k := by
  induction s generalizing n v k with
  | nil => cases h
  | cons b s ih =>
    rw [readArc?] at h
    split at h
    next =>
      obtain ⟨-, rfl, rfl⟩ : _ ∧ _ ∧ _ := by simpa only [Option.some.injEq, Prod.mk.injEq] using h
      exact ⟨[b], rfl, rfl⟩
    next =>
      dsimp only at h
      split at h
      next =>
        obtain ⟨⟨v', k', s'⟩, hread, heq⟩ := Option.map_eq_some_iff.mp h
        obtain ⟨-, rfl, rfl⟩ : _ ∧ _ ∧ _ := by simpa only [Prod.mk.injEq] using heq
        obtain ⟨front, rfl, rfl⟩ := ih hread
        exact ⟨b :: front, rfl, rfl⟩
      next => cases h

/-! ## Tags -/

/-- A byte is made of its space, the mark of constructed elements, and the number. -/
theorem bytes_ofByte {b : UInt8} (h : b.toNat % 32 < longTag) :
    Tag.bytes ⟨Space.ofByte b, b.toNat % 32⟩ (b.toNat % 64 / 32 == 1) = [b] := by
  have hspace : (Space.ofByte b).bits = b.toNat / 64 * 64 := by
    have := b.toNat_lt
    simp only [Space.ofByte, UInt8.lt_iff_toNat_lt, UInt8.reduceToNat]
    split
    next =>
      simp only [Space.bits]
      omega
    next =>
      split
      next =>
        simp only [Space.bits]
        omega
      next =>
        split
        next =>
          simp only [Space.bits]
          omega
        next =>
          simp only [Space.bits]
          omega
  have hmark : (if (b.toNat % 64 / 32 == 1) = true then 0x20 else 0) = b.toNat % 64 / 32 * 32 := by
    split
    next hone =>
      rw [beq_iff_eq.mp hone]
    next hzero =>
      rw [beq_iff_eq] at hzero
      omega
  rw [Tag.bytes, if_pos h]
  dsimp only
  rw [hspace, hmark]
  congr 1
  apply UInt8.toNat_inj.mp
  rw [UInt8.toNat_ofNat']
  have := b.toNat_lt
  omega

theorem readTag?_basic {s rest : Bytes} {tag : Tag} {c : Bool} {k : Nat}
    (h : readTag? .distinguished s = some (tag, c, k, rest)) (t : Bytes) :
    readTag? .basic (s ++ t) = some (tag, c, k, rest ++ t) := by
  cases s with
  | nil => cases h
  | cons b s =>
    rw [readTag?] at h
    rw [List.cons_append, readTag?]
    split at h
    next hshort =>
      obtain ⟨rfl, rfl, rfl, rfl⟩ : _ ∧ _ ∧ _ ∧ _ := by
        simpa only [Option.some.injEq, Prod.mk.injEq] using h
      rw [if_pos hshort]
    next hlong =>
      split at h
      next => cases h
      next n k' s' harc =>
        split at h
        next => cases h
        next =>
          obtain ⟨rfl, rfl, rfl, rfl⟩ : _ ∧ _ ∧ _ ∧ _ := by
            simpa only [Option.some.injEq, Prod.mk.injEq] using h
          rw [if_neg hlong, readArc?_append harc t]
          exact if_neg fun hstrict => absurd hstrict.1 (by decide)

/-- A tag takes up as many bytes as it says, and one below 31 is its byte. -/
theorem exists_of_readTag? {s rest : Bytes} {tag : Tag} {c : Bool} {k : Nat}
    (h : readTag? .distinguished s = some (tag, c, k, rest)) :
    ∃ front, s = front ++ rest ∧ front.length = k ∧ front ≠ []
      ∧ (tag.number < longTag → front = tag.bytes c) := by
  cases s with
  | nil => cases h
  | cons b s =>
    rw [readTag?] at h
    split at h
    next hshort =>
      obtain ⟨rfl, rfl, rfl, rfl⟩ : _ ∧ _ ∧ _ ∧ _ := by
        simpa only [Option.some.injEq, Prod.mk.injEq] using h
      exact ⟨[b], rfl, rfl, List.cons_ne_nil _ _, fun _ => (bytes_ofByte hshort).symm⟩
    next =>
      split at h
      next => cases h
      next n k' s' harc =>
        split at h
        next => cases h
        next hstrict =>
          obtain ⟨rfl, rfl, rfl, rfl⟩ : _ ∧ _ ∧ _ ∧ _ := by
            simpa only [Option.some.injEq, Prod.mk.injEq] using h
          obtain ⟨front, rfl, rfl⟩ := exists_of_readArc? harc
          refine ⟨b :: front, rfl, rfl, List.cons_ne_nil _ _, fun hlow => ?_⟩
          -- the long form is for numbers that do not fit the byte
          exact absurd ⟨rfl, Or.inl hlow⟩ hstrict

/-! ## Lengths -/

/-- By the distinguished rules a length is never left open, and stands as it is written. -/
theorem exists_of_readLength? {s rest : Bytes} {l : Option Nat} {k : Nat}
    (h : readLength? .distinguished s = some (l, k, rest)) :
    ∃ n, l = some n ∧ s = lengthField n ++ rest ∧ (lengthField n).length = k := by
  cases s with
  | nil => cases h
  | cons b s =>
    rw [readLength?] at h
    split at h
    next hshort =>
      obtain ⟨rfl, rfl, rfl⟩ : _ ∧ _ ∧ _ := by simpa only [Option.some.injEq, Prod.mk.injEq] using h
      have hlow : b.toNat < 0x80 := UInt8.lt_iff_toNat_lt.mp hshort
      have hfield : lengthField b.toNat = [b] := by
        rw [lengthField, if_pos hlow, UInt8.ofNat_toNat]
      exact ⟨b.toNat, rfl, by rw [hfield]; rfl, by rw [hfield]; rfl⟩
    next hlong =>
      split at h
      next hstrict =>
        obtain ⟨hlength, hhead, hmin⟩ := hstrict
        obtain ⟨rfl, rfl, rfl⟩ : _ ∧ _ ∧ _ := by
          simpa only [Option.some.injEq, Prod.mk.injEq] using h
        have hsome : s.take (b.toNat - 0x80) ≠ [] := by
          intro hnil
          rw [hnil] at hmin
          exact absurd hmin (by decide)
        have hfield : lengthField (number (s.take (b.toNat - 0x80)))
            = b :: s.take (b.toNat - 0x80) := by
          rw [lengthField, if_neg (by omega), digits_number hsome hhead, hlength]
          have hb : 0x80 ≤ b.toNat := Nat.not_lt.mp fun hlt => hlong (UInt8.lt_iff_toNat_lt.mpr hlt)
          rw [Nat.add_sub_cancel' hb, UInt8.ofNat_toNat]
        refine ⟨_, rfl, ?_, ?_⟩
        · rw [hfield, List.cons_append, List.take_append_drop]
        · rw [hfield, List.length_cons, hlength]
      next => cases h

/-- By the basic rules it is read the same, if the content that it announces is there. -/
theorem readLength?_basic {s rest : Bytes} {n k : Nat}
    (h : readLength? .distinguished s = some (some n, k, rest)) (hrest : n ≤ rest.length)
    (t : Bytes) : readLength? .basic (s ++ t) = some (some n, k, rest ++ t) := by
  cases s with
  | nil => cases h
  | cons b s =>
    rw [readLength?] at h
    rw [List.cons_append, readLength?]
    split at h
    next hshort =>
      obtain ⟨rfl, rfl, rfl⟩ : _ ∧ _ ∧ _ := by simpa only [Option.some.injEq, Prod.mk.injEq] using h
      rw [if_pos hshort]
    next hlong =>
      rw [if_neg hlong]
      split at h
      next hstrict =>
        obtain ⟨hlength, hhead, hmin⟩ := hstrict
        obtain ⟨rfl, rfl, rfl⟩ : _ ∧ _ ∧ _ := by
          simpa only [Option.some.injEq, Prod.mk.injEq] using h
        have hcount : b.toNat - 0x80 ≠ 0 := by
          intro hzero
          rw [hzero, List.take_zero] at hmin
          exact absurd hmin (by decide)
        have hle : b.toNat - 0x80 ≤ s.length := by
          rw [List.length_take] at hlength
          omega
        -- there is content, so something follows the digits
        have hmore : ((s ++ t).take (b.toNat - 0x80 + 1)).length = b.toNat - 0x80 + 1 := by
          rw [List.length_drop] at hrest
          rw [List.length_take, List.length_append]
          omega
        rw [if_neg hcount, if_pos hmore, List.take_append_of_le_length hle,
          List.drop_append_of_le_length hle]
      next => cases h

/-! ## Elements -/

theorem lengthField_ne_nil (n : Nat) : lengthField n ≠ [] := by
  rw [lengthField]
  split
  next => exact List.cons_ne_nil _ _
  next => exact List.cons_ne_nil _ _

/-- Two bytes are enough to see an end mark. -/
theorem startsWith_endMark_append {front : Bytes} (h : 2 ≤ front.length) (s t : Bytes) :
    Bytes.startsWith (front ++ s) endMark = Bytes.startsWith (front ++ t) endMark := by
  match front, h with
  | a :: b :: front, _ =>
    simp only [Bytes.startsWith, endMark, List.cons_append, Bytes.afterPrefix?]
    split
    next =>
      split
      next => rfl
      next => rfl
    next => rfl

/-- A head that was read by the distinguished rules is what would be written. -/
theorem exists_of_readHead? {s body : Bytes} {head : Head}
    (h : readHead? .distinguished s = some (head, body)) :
    ∃ front n, head.length = some n ∧ s = front ++ body ∧ front.length = head.size
      ∧ 2 ≤ front.length
      ∧ (head.tag.number < longTag →
        front = head.tag.bytes head.constructed ++ lengthField n) := by
  rw [readHead?] at h
  split at h
  next => cases h
  next tag c tagSize rest htag =>
    split at h
    next => cases h
    next l lengthSize body' hlength =>
      obtain ⟨front, rfl, rfl, hfront, hbytes⟩ := exists_of_readTag? htag
      obtain ⟨n, rfl, rfl, rfl⟩ := exists_of_readLength? hlength
      obtain ⟨rfl, rfl⟩ : _ ∧ _ := by
        simpa only [Option.isSome_some, Bool.true_or, if_true, Option.some.injEq, Prod.mk.injEq]
          using h
      refine ⟨front ++ lengthField n, n, rfl, ?_, ?_, ?_, fun hlow => ?_⟩
      · rw [List.append_assoc]
      · rw [List.length_append]
      · have htag := List.length_pos_iff.mpr hfront
        have hlength := List.length_pos_iff.mpr (lengthField_ne_nil n)
        rw [List.length_append]
        omega
      · rw [hbytes hlow]

theorem readHead?_basic {s body : Bytes} {head : Head} {n : Nat}
    (h : readHead? .distinguished s = some (head, body)) (hn : head.length = some n)
    (hbody : n ≤ body.length) (t : Bytes) : readHead? .basic (s ++ t) = some (head, body ++ t) := by
  rw [readHead?] at h ⊢
  split at h
  next => cases h
  next tag c tagSize rest htag =>
    rw [readTag?_basic htag t]
    dsimp only
    split at h
    next => cases h
    next l lengthSize body' hlength =>
      obtain ⟨m, rfl, -, -⟩ := exists_of_readLength? hlength
      obtain ⟨rfl, rfl⟩ : _ ∧ _ := by
        simpa only [Option.isSome_some, Bool.true_or, if_true, Option.some.injEq, Prod.mk.injEq]
          using h
      obtain rfl : m = n := Option.some.inj hn
      rw [readLength?_basic hlength hbody t]
      rfl

/-- Reading an element by the distinguished rules, step by step: a head, and as much content as it
announces. -/
theorem exists_of_read? {s rest : Bytes} {e : Element}
    (h : read? .distinguished s = some (e, rest)) :
    ∃ head front, Bytes.startsWith s endMark = false
      ∧ readHead? .distinguished s = some (head, e.content ++ rest)
      ∧ head.tag = e.tag ∧ head.constructed = e.constructed
      ∧ head.length = some e.content.length
      ∧ s = front ++ (e.content ++ rest) ∧ front.length = head.size ∧ 2 ≤ front.length
      ∧ e.raw = front ++ e.content
      ∧ (e.tag.number < longTag →
        front = e.tag.bytes e.constructed ++ lengthField e.content.length) := by
  rw [read?] at h
  split at h
  next => cases h
  next hmark =>
    obtain ⟨⟨head, body⟩, hhead, htake⟩ := Option.bind_eq_some_iff.mp h
    obtain ⟨front, n, hn, rfl, hsize, htwo, hbytes⟩ := exists_of_readHead? hhead
    simp only [take?, hn] at htake
    split at htake
    next hcontent =>
      obtain ⟨rfl, rfl⟩ := Prod.mk.inj (Option.some.inj htake)
      refine ⟨head, front, Bool.eq_false_iff.mpr hmark, ?_, rfl, rfl, ?_, ?_, hsize, htwo, ?_, ?_⟩
      · rw [List.take_append_drop]
        exact hhead
      · rw [hcontent, hn]
      · rw [List.take_append_drop]
      · rw [← hsize, List.take_length_add_append]
      · rw [hcontent]
        exact hbytes
    next => cases htake

/-- An element takes up its own bytes. -/
theorem eq_of_read? {s rest : Bytes} {e : Element} (h : read? .distinguished s = some (e, rest)) :
    s = e.raw ++ rest := by
  obtain ⟨_, front, -, -, -, -, -, hs, -, -, hraw, -⟩ := exists_of_read? h
  rw [hs, hraw, List.append_assoc]

/-- An element with a short tag is the one that would be written. -/
theorem raw_of_read? {s rest : Bytes} {e : Element} (h : read? .distinguished s = some (e, rest))
    (ht : e.tag.number < longTag) : e.raw = framed e.tag e.constructed e.content := by
  obtain ⟨_, front, -, -, -, -, -, -, -, -, hraw, hbytes⟩ := exists_of_read? h
  rw [hraw, hbytes ht, framed]

/-- An element with a short tag that fills all there is. -/
theorem eq_of_readOne? {s : Bytes} {e : Element} (h : readOne? .distinguished s = some e)
    (ht : e.tag.number < longTag) : s = framed e.tag e.constructed e.content := by
  have hread := read?_of_readOne? h
  rw [eq_of_read? hread, List.append_nil, raw_of_read? hread ht]

/-- By the basic rules the same element is read, with anything behind it. -/
theorem read?_basic {s rest : Bytes} {e : Element} (h : read? .distinguished s = some (e, rest))
    (t : Bytes) : read? .basic (s ++ t) = some (e, rest ++ t) := by
  obtain ⟨head, front, hmark, hhead, htag, hconstructed, hlength, rfl, hsize, htwo, hraw, -⟩ :=
    exists_of_read? h
  have hbody : e.content.length ≤ (e.content ++ rest).length := by
    rw [List.length_append]
    exact Nat.le_add_right _ _
  have hbasic := readHead?_basic hhead hlength hbody t
  have hmark' : Bytes.startsWith (front ++ (e.content ++ rest) ++ t) endMark = false := by
    rw [List.append_assoc, startsWith_endMark_append htwo _ (e.content ++ rest), hmark]
  rw [read?, hmark', hbasic]
  simp only [Bool.false_eq_true, if_false, Option.bind_some, take?, hlength]
  rw [List.append_assoc, List.take_left, List.drop_left, if_pos rfl, ← hsize,
    List.append_assoc, List.append_assoc, List.take_length_add_append, List.take_left, ← hraw, htag,
    hconstructed]

/-! ## Rows -/

theorem readAll?_basic {s : Bytes} {es : List Element} (h : readAll? .distinguished s = some es) :
    readAll? .basic s = some es := by
  induction s using (readAll?.induct .distinguished) generalizing es with
  | case1 =>
    rw [readAll?_nil] at h ⊢
    exact h
  | case2 s hs hnone =>
    rw [readAll?, if_neg hs] at h
    split at h
    next => cases h
    next hsome => cases hsome.symm.trans hnone
  | case3 s hs e rest hread ih =>
    rw [readAll?_of_read? hread] at h
    obtain ⟨more, hmore, rfl⟩ := Option.map_eq_some_iff.mp h
    have hbasic := read?_basic hread []
    rw [List.append_nil, List.append_nil] at hbasic
    rw [readAll?_of_read? hbasic, ih hmore]
    rfl

/-- A row is the elements that were read. -/
theorem eq_of_readAll? {s : Bytes} {es : List Element}
    (h : readAll? .distinguished s = some es) :
    s = (es.map Element.raw).flatten
      ∧ ∀ e ∈ es, e.tag.number < longTag → e.raw = framed e.tag e.constructed e.content := by
  induction s using (readAll?.induct .distinguished) generalizing es with
  | case1 =>
    rw [readAll?_nil] at h
    obtain rfl := Option.some.inj h
    exact ⟨rfl, List.forall_mem_nil _⟩
  | case2 s hs hnone =>
    rw [readAll?, if_neg hs] at h
    split at h
    next => cases h
    next hsome => cases hsome.symm.trans hnone
  | case3 s hs e rest hread ih =>
    rw [readAll?_of_read? hread] at h
    obtain ⟨more, hmore, rfl⟩ := Option.map_eq_some_iff.mp h
    obtain ⟨hrest, hraw⟩ := ih hmore
    refine ⟨?_, List.forall_mem_cons.mpr ⟨raw_of_read? hread, hraw⟩⟩
    rw [List.map_cons, List.flatten_cons, ← hrest]
    exact eq_of_read? hread

end Keystore.Der
