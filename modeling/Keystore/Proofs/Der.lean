import Keystore.Der.Element
import Keystore.Proofs.BigEndian

/-!
# Reading written elements back

What `Der` writes, `Der.read?` takes off the front of any bytes again, by either
set of rules, and leaves what follows (`read?_element`). That is the step; a row
of written elements is then read by `readAll?` one element after the other
(`readAll?_of_read?`).

A tag below 31 takes one byte, and a length takes one byte below 128 and its
digits otherwise. The digits are as few as possible, which is what the
distinguished rules insist on: the first is not zero (`head?_digits`).
-/

namespace Keystore.Der

open BigEndian (number)

/-! ## Lengths -/

/-- The digits of a number stand for it. -/
theorem number_digits (n : Nat) : number (digits n) = n := by
  fun_induction digits n with
  | case1 n h =>
    show 0 * 256 + (UInt8.ofNat n).toNat = n
    rw [UInt8.toNat_ofNat_of_lt' h]
    omega
  | case2 n h ih =>
    rw [BigEndian.number_concat, ih, UInt8.toNat_ofNat']
    omega

theorem digits_ne_nil (n : Nat) : digits n ≠ [] := by
  rw [digits]
  split
  next => exact List.cons_ne_nil _ _
  next => exact List.append_ne_nil_of_right_ne_nil _ (List.cons_ne_nil _ _)

/-- The digits of a positive number have no leading zero. -/
theorem head?_digits {n : Nat} (h : 0 < n) : (digits n).head? ≠ some 0 := by
  fun_induction digits n with
  | case1 n hlt =>
    intro hzero
    have hn : (UInt8.ofNat n).toNat = 0 := by
      rw [show UInt8.ofNat n = 0 from Option.some.inj hzero]
      rfl
    rw [UInt8.toNat_ofNat_of_lt' hlt] at hn
    omega
  | case2 n hge ih =>
    have hhead := ih (by omega)
    cases hd : digits (n / 256) with
    | nil => exact absurd hd (digits_ne_nil _)
    | cons b s =>
      rw [hd] at hhead
      exact hhead

theorem length_digits_le {n k : Nat} (h : n < 256 ^ (k + 1)) : (digits n).length ≤ k + 1 := by
  induction k generalizing n with
  | zero =>
    rw [digits, if_pos (by simpa using h)]
    exact Nat.le_refl 1
  | succ k ih =>
    rw [digits]
    split
    next => simp
    next =>
      -- without its last digit the number is below the next smaller power
      rw [List.length_append]
      have hk : n / 256 < 256 ^ (k + 1) := by
        rw [Nat.div_lt_iff_lt_mul (by decide)]
        exact h
      exact Nat.add_le_add_right (ih hk) 1

/-- The largest lengths that are considered take eight bytes. -/
abbrev lengthBound : Nat := 256 ^ 8

/-- A length is read back, if the content that it announces is there. -/
theorem readLength?_lengthField (rules : Rules) {n : Nat} {rest : Bytes} (hn : n < lengthBound)
    (hrest : n ≤ rest.length) :
    readLength? rules (lengthField n ++ rest) = some (some n, (lengthField n).length, rest) := by
  -- below 128 the byte is the length itself; from there on it counts the digits behind it
  by_cases hshort : n < 0x80
  · have hbyte : (UInt8.ofNat n).toNat = n :=
      UInt8.toNat_ofNat_of_lt' (Nat.lt_trans hshort (by decide))
    have hlow : UInt8.ofNat n < 0x80 := by
      rw [UInt8.lt_iff_toNat_lt, hbyte]
      exact hshort
    rw [lengthField, if_pos hshort, List.singleton_append]
    simp only [readLength?, if_pos hlow, hbyte, List.length_singleton]
  · have hcount : (digits n).length ≤ 8 := length_digits_le hn
    have hbyte : (UInt8.ofNat (0x80 + (digits n).length)).toNat = 0x80 + (digits n).length :=
      UInt8.toNat_ofNat_of_lt' (by simp only [UInt8.size]; omega)
    have hhigh : ¬ UInt8.ofNat (0x80 + (digits n).length) < 0x80 := by
      rw [UInt8.lt_iff_toNat_lt, hbyte]
      exact Nat.not_lt.mpr (Nat.le_add_right 0x80 _)
    have hpos : (digits n).length ≠ 0 := by
      intro hzero
      exact digits_ne_nil n (List.length_eq_zero_iff.mp hzero)
    rw [lengthField, if_neg hshort, List.cons_append]
    simp only [readLength?, if_neg hhigh, hbyte, Nat.add_sub_cancel_left, List.take_left, List.drop_left,
      number_digits, List.length_cons]
    cases rules with
    | basic =>
      -- by these rules at least one byte has to follow the digits
      have hmore : ((digits n ++ rest).take ((digits n).length + 1)).length
          = (digits n).length + 1 := by
        rw [List.length_take, List.length_append]
        omega
      simp only [if_neg hpos, if_pos hmore]
    | distinguished =>
      simp only [true_and]
      rw [if_pos ⟨head?_digits (by omega), by omega⟩]

/-! ## Tags -/

/-- The byte of a tag whose number fits it. -/
theorem toNat_tagByte (t : Tag) (c : Bool) (h : t.number < longTag) :
    (UInt8.ofNat (t.space.bits + (if c then 0x20 else 0) + t.number)).toNat
      = t.space.bits + (if c then 0x20 else 0) + t.number := by
  apply UInt8.toNat_ofNat_of_lt'
  rcases t with ⟨space, number⟩
  cases space <;> cases c <;> simp [Space.bits, UInt8.size, longTag] at h ⊢ <;> omega

/-- The space of a byte is told by its value. -/
theorem ofByte_of_toNat {b : UInt8} {s : Space} {k : Nat} (h : b.toNat = s.bits + k)
    (hk : k < 0x40) : Space.ofByte b = s := by
  simp only [Space.ofByte, UInt8.lt_iff_toNat_lt, UInt8.reduceToNat, h]
  cases s with
  | universal => rw [if_pos (by simp only [Space.bits]; omega)]
  | application =>
    rw [if_neg (by simp only [Space.bits]; omega), if_pos (by simp only [Space.bits]; omega)]
  | context =>
    rw [if_neg (by simp only [Space.bits]; omega), if_neg (by simp only [Space.bits]; omega),
      if_pos (by simp only [Space.bits]; omega)]
  | reserved =>
    rw [if_neg (by simp only [Space.bits]; omega), if_neg (by simp only [Space.bits]; omega),
      if_neg (by simp only [Space.bits]; omega)]

/-- A tag of one byte is read back. -/
theorem readTag?_bytes (rules : Rules) (t : Tag) (c : Bool) (h : t.number < longTag)
    (rest : Bytes) : readTag? rules (t.bytes c ++ rest) = some (t, c, 1, rest) := by
  have hbyte := toNat_tagByte t c h
  have hspace : Space.ofByte (UInt8.ofNat (t.space.bits + (if c then 0x20 else 0) + t.number))
      = t.space := by
    apply ofByte_of_toNat (k := (if c then 0x20 else 0) + t.number)
    · rw [hbyte, Nat.add_assoc]
    · cases c <;> simp [longTag] at h ⊢ <;> omega
  have hbits : t.space.bits % 64 = 0 := by cases t.space <;> rfl
  have hnumber : (t.space.bits + (if c then 0x20 else 0) + t.number) % 32 = t.number := by
    cases c <;> simp [longTag] at h ⊢ <;> omega
  have hconstructed :
      ((t.space.bits + (if c then 0x20 else 0) + t.number) % 64 / 32 == 1) = c := by
    cases c <;> simp [longTag] at h ⊢ <;> omega
  rw [Tag.bytes, if_pos h, List.singleton_append, readTag?]
  simp only [hbyte, hspace, hnumber, hconstructed, if_pos h]

/-! ## Elements -/

/-- An element: its tag, the length of its content, and the content. -/
def framed (t : Tag) (c : Bool) (content : Bytes) : Bytes :=
  t.bytes c ++ lengthField content.length ++ content

/-- Only two zero bytes are an end mark, and no other tag begins with one. -/
theorem startsWith_endMark {b : UInt8} (s : Bytes) (h : b ≠ 0) :
    Bytes.startsWith (b :: s) endMark = false := by
  rw [Bytes.startsWith, endMark, Bytes.afterPrefix?, if_neg (fun e => h e.symm)]
  rfl

theorem readHead?_framed (rules : Rules) {t : Tag} {c : Bool} {content : Bytes} (rest : Bytes)
    (ht : t.number < longTag) (hlen : content.length < lengthBound) :
    readHead? rules (framed t c content ++ rest)
      = some (⟨t, c, some content.length, 1 + (lengthField content.length).length⟩,
          content ++ rest) := by
  have hrest : content.length ≤ (content ++ rest).length := by
    rw [List.length_append]
    exact Nat.le_add_right _ _
  simp only [readHead?, framed, List.append_assoc]
  rw [readTag?_bytes rules t c ht]
  simp only [readLength?_lengthField rules hlen hrest, Option.isSome_some, Bool.true_or, if_true]

/-- The step: one element is read off the front, and what follows it is left. -/
theorem read?_element (rules : Rules) {t : Tag} {c : Bool} {content : Bytes} (rest : Bytes)
    (ht : t.number < longTag) (hmark : t.bytes c ≠ [0]) (hlen : content.length < lengthBound) :
    read? rules (framed t c content ++ rest)
      = some (⟨t, c, content, framed t c content⟩, rest) := by
  -- an element whose first byte is not zero is not taken for the end of a row
  have hmarked : Bytes.startsWith (framed t c content ++ rest) endMark = false := by
    simp only [framed, Tag.bytes, if_pos ht, List.append_assoc, List.singleton_append] at hmark ⊢
    apply startsWith_endMark
    intro hzero
    exact hmark (by rw [hzero])
  have hsize : (framed t c content).length
      = 1 + (lengthField content.length).length + content.length := by
    rw [framed, Tag.bytes, if_pos ht, List.length_append, List.length_append,
      List.length_singleton]
  rw [read?, hmarked, readHead?_framed rules rest ht hlen]
  simp only [Bool.false_eq_true, if_false, Option.bind_some, take?, List.take_left,
    List.drop_left, if_true, ← hsize]

theorem read?_primitive (rules : Rules) {t : Tag} {content : Bytes} (rest : Bytes)
    (ht : t.number < longTag) (hmark : t.bytes false ≠ [0]) (hlen : content.length < lengthBound) :
    read? rules (primitive t content ++ rest)
      = some (⟨t, false, content, primitive t content⟩, rest) :=
  read?_element rules rest ht hmark hlen

theorem read?_constructed (rules : Rules) {t : Tag} {parts : List Bytes} (rest : Bytes)
    (ht : t.number < longTag) (hmark : t.bytes true ≠ [0])
    (hlen : parts.flatten.length < lengthBound) :
    read? rules (constructed t parts ++ rest)
      = some (⟨t, true, parts.flatten, constructed t parts⟩, rest) :=
  read?_element rules rest ht hmark hlen

/-! ## Rows -/

theorem readAll?_nil (rules : Rules) : readAll? rules [] = some [] := by
  rw [readAll?, if_pos rfl]

/-- A row is read one element at a time. -/
theorem readAll?_of_read? {rules : Rules} {s rest : Bytes} {e : Element}
    (h : read? rules s = some (e, rest)) :
    readAll? rules s = (readAll? rules rest).map (e :: ·) := by
  -- reading takes something, so there is something to read
  have hs : s ≠ [] := by
    intro hnil
    have hlt := length_read? h
    rw [hnil] at hlt
    exact Nat.not_lt_zero _ hlt
  rw [readAll?, if_neg hs]
  split
  next hnone =>
    rw [h] at hnone
    cases hnone
  next e' rest' hsome =>
    rw [h] at hsome
    obtain ⟨rfl, rfl⟩ := Prod.mk.inj (Option.some.inj hsome)
    rfl

/-- One element that fills all there is. -/
theorem readOne?_of_read? {rules : Rules} {s : Bytes} {e : Element}
    (h : read? rules s = some (e, [])) : readOne? rules s = some e := by
  rw [readOne?, h]

theorem read?_of_readOne? {rules : Rules} {s : Bytes} {e : Element}
    (h : readOne? rules s = some e) : read? rules s = some (e, []) := by
  unfold readOne? at h
  split at h
  next e' hread =>
    obtain rfl := Option.some.inj h
    exact hread
  next => exact nomatch h

end Keystore.Der
