import Keystore.Proofs.KeyProtector
import Keystore.Proofs.StoreSeal
import Keystore.Proofs.Utf8Segments

/-!
# Passwords in UTF-16

`IsForm` says what the form of a row of characters in UTF-16 is, without the writer: units of two
bytes, of which a high surrogate and a low one belong together and no others occur. Each row has
one form, and it is what the writer gives (`isForm_iff`).

A password that is UTF-8 enters the digests as the form of its characters, so different ones enter
none alike (`isForm_ofText`). One that is not is read in segments, which `Utf8.Splits` describes,
and enters the digests as the form of what these stand for, U+FFFD for the malformed ones
(`ofText_segments`).
-/

namespace Keystore.Utf16

/-- The form of characters in UTF-16, the high byte first and without a byte order mark. A
character up to U+FFFF is the unit of its code point. One above is a high surrogate and a low one
directly behind it, each with ten bits of what the code point is above U+FFFF. -/
inductive IsForm : List Char → Bytes → Prop
  | nil : IsForm [] []
  | unit {c : Char} {high low : UInt8} {cs : List Char} {s : Bytes}
    (hchar : c.toNat = unitValue high low) (more : IsForm cs s) :
    IsForm (c :: cs) (high :: low :: s)
  | pair {c : Char} {h1 l1 h2 l2 : UInt8} {cs : List Char} {s : Bytes}
    (hhigh : 0xD800 ≤ unitValue h1 l1 ∧ unitValue h1 l1 < 0xDC00)
    (hlow : 0xDC00 ≤ unitValue h2 l2 ∧ unitValue h2 l2 < 0xE000)
    (hchar : c.toNat
      = 0x10000 + (unitValue h1 l1 - 0xD800) * 0x400 + (unitValue h2 l2 - 0xDC00))
    (more : IsForm cs s) : IsForm (c :: cs) (h1 :: l1 :: h2 :: l2 :: s)

/-! ## The writer -/

theorem unit_unitValue (high low : UInt8) : unit (unitValue high low) = [high, low] := by
  have hhigh := high.toNat_lt
  have hlow := low.toNat_lt
  unfold unit unitValue
  rw [List.cons.injEq, List.cons.injEq, ← UInt8.toNat_inj, ← UInt8.toNat_inj, UInt8.toNat_ofNat',
    UInt8.toNat_ofNat']
  refine ⟨?_, ?_, rfl⟩
  · omega
  · omega

/-- A unit is written as two bytes that stand for it. -/
theorem exists_unit {n : Nat} (h : n < 0x10000) :
    ∃ high low, unit n = [high, low] ∧ unitValue high low = n :=
  ⟨_, _, rfl, unitValue_unit h⟩

theorem IsForm.eq_encode {cs : List Char} {s : Bytes} (h : IsForm cs s) : s = encode cs := by
  induction h with
  | nil => rfl
  | @unit c high low cs s hchar _ ih =>
    have hhigh := high.toNat_lt
    have hlow := low.toNat_lt
    have hshort : c.toNat < 0x10000 := by
      rw [hchar]
      unfold unitValue
      omega
    have hc : encodeChar c = [high, low] := by
      unfold encodeChar
      dsimp only
      rw [if_pos hshort, hchar, unit_unitValue]
    show high :: low :: s = encodeChar c ++ encode cs
    rw [hc, ih]
    rfl
  | @pair c h1 l1 h2 l2 cs s hhigh hlow hchar _ ih =>
    have hc : encodeChar c = [h1, l1] ++ [h2, l2] := by
      -- the two halves of what the code point is above U+FFFF
      have hhalf1 : 0xD800 + (c.toNat - 0x10000) / 0x400 = unitValue h1 l1 := by omega
      have hhalf2 : 0xDC00 + (c.toNat - 0x10000) % 0x400 = unitValue h2 l2 := by omega
      unfold encodeChar
      dsimp only
      rw [if_neg (by omega), hhalf1, hhalf2, unit_unitValue, unit_unitValue]
    show h1 :: l1 :: h2 :: l2 :: s = encodeChar c ++ encode cs
    rw [hc, ih]
    rfl

theorem isForm_encode (cs : List Char) : IsForm cs (encode cs) := by
  induction cs with
  | nil => exact .nil
  | cons c cs ih =>
    have hvalid : c.toNat < 0xD800 ∨ 0xDFFF < c.toNat ∧ c.toNat < 0x110000 := c.valid
    show IsForm (c :: cs) (encodeChar c ++ encode cs)
    unfold encodeChar
    dsimp only
    split
    next hshort =>
      obtain ⟨high, low, hunit, hvalue⟩ := exists_unit hshort
      rw [hunit]
      exact .unit hvalue.symm ih
    next hlong =>
      obtain ⟨h1, l1, hunit1, hvalue1⟩ :=
        exists_unit (n := 0xD800 + (c.toNat - 0x10000) / 0x400) (by omega)
      obtain ⟨h2, l2, hunit2, hvalue2⟩ :=
        exists_unit (n := 0xDC00 + (c.toNat - 0x10000) % 0x400) (by omega)
      rw [hunit1, hunit2]
      exact .pair (by omega) (by omega) (by omega) ih

/-- Each row of characters has one form, the one that is written. -/
theorem isForm_iff {cs : List Char} {s : Bytes} : IsForm cs s ↔ s = encode cs := by
  constructor
  · intro h
    exact h.eq_encode
  · intro h
    rw [h]
    exact isForm_encode cs

/-! ## Passwords that are text -/

theorem ofText_encode (cs : List Char) : ofText (Utf8.encode cs) = encode cs := by
  unfold ofText
  rw [Utf8.decode_encode]

/-- A password that is the UTF-8 form of some characters enters the digests as the UTF-16 form of
the same characters, which is read back as these. So two such passwords enter no digest alike:
neither one behind which a salt or a key stands nor the one over a whole file. -/
theorem isForm_ofText :
    (∀ (cs : List Char) (s : Bytes), IsForm cs s ↔ s = ofText (Utf8.encode cs))
    ∧ (∀ cs : List Char, decode? (ofText (Utf8.encode cs)) = some cs)
    ∧ ∀ cs ds : List Char, Utf8.encode cs ≠ Utf8.encode ds →
      ofText (Utf8.encode cs) ≠ ofText (Utf8.encode ds)
      ∧ (∀ s : Bytes, KeyProtector.message (Utf8.encode cs) s
          ≠ KeyProtector.message (Utf8.encode ds) s)
      ∧ ∀ body : Bytes, Trailer.message (Utf8.encode cs) body
          ≠ Trailer.message (Utf8.encode ds) body := by
  refine ⟨?_, ?_, ?_⟩
  · intro cs s
    rw [ofText_encode]
    exact isForm_iff
  · intro cs
    rw [ofText_encode]
    exact decode?_encode cs
  · intro cs ds hne
    have hforms : ofText (Utf8.encode cs) ≠ ofText (Utf8.encode ds) := by
      intro hsame
      rw [ofText_encode, ofText_encode] at hsame
      exact hne (congrArg Utf8.encode (encode_inj hsame))
    refine ⟨hforms, ?_, ?_⟩
    · intro s hsame
      exact hforms (List.append_cancel_right hsame)
    · intro body hsame
      exact hforms (Trailer.message_password hsame)

/-- Two passwords that differ in the last character only, which is none that texts should hold. -/
theorem isForm_ofText_sample :
    Utf8.encode ['\x00', '𝄞', '\uFFFE'] ≠ Utf8.encode ['\x00', '𝄞', '\uFFFF']
      ∧ ofText (Utf8.encode ['\x00', '𝄞', '\uFFFE']) ≠ ofText (Utf8.encode ['\x00', '𝄞', '\uFFFF'])
      ∧ (∀ s : Bytes, KeyProtector.message (Utf8.encode ['\x00', '𝄞', '\uFFFE']) s
          ≠ KeyProtector.message (Utf8.encode ['\x00', '𝄞', '\uFFFF']) s)
      ∧ ∀ body : Bytes, Trailer.message (Utf8.encode ['\x00', '𝄞', '\uFFFE']) body
          ≠ Trailer.message (Utf8.encode ['\x00', '𝄞', '\uFFFF']) body := by
  have hne : Utf8.encode ['\x00', '𝄞', '\uFFFE'] ≠ Utf8.encode ['\x00', '𝄞', '\uFFFF'] := by
    decide
  exact ⟨hne, isForm_ofText.2.2 _ _ hne⟩

/-! ## Passwords that are any bytes -/

theorem encode_append (cs ds : List Char) : encode (cs ++ ds) = encode cs ++ encode ds :=
  List.flatMap_append

theorem length_encodeChar (c : Char) :
    (encodeChar c).length = if c.toNat < 0x10000 then 2 else 4 := by
  unfold encodeChar
  dsimp only
  split
  next => rfl
  next => rfl

/-- A segment has at most two bytes in UTF-16 for each of its own. -/
theorem length_encodeChar_le {rest : Bytes} {g : Utf8.Segment} (h : Utf8.IsSegment rest g) :
    (encodeChar g.char).length ≤ 2 * g.bytes.length := by
  have hlength := h.length
  rw [length_encodeChar]
  split
  next => omega
  next hlarge =>
    -- above U+FFFF the segment is a character's form, of four bytes
    rcases h with hform | ⟨hchar, -⟩
    · have hsize : g.bytes.length = 4 := by
        rw [hform, String.length_utf8EncodeChar, Utf8.utf8Size_eq, if_neg (by omega),
          if_neg (by omega), if_neg hlarge]
      omega
    · rw [hchar] at hlarge
      exact absurd (by decide) hlarge

/-- Of a row of segments, one after the other. -/
theorem length_encode_of_splits {gs : List Utf8.Segment} {s : Bytes} (h : Utf8.Splits gs s) :
    (encode (gs.map Utf8.Segment.char)).length % 2 = 0
      ∧ (encode (gs.map Utf8.Segment.char)).length ≤ 2 * s.length := by
  induction h with
  | nil => exact ⟨rfl, Nat.le_refl 0⟩
  | @cons g gs rest hg _ ih =>
    have hsize := length_encodeChar g.char
    have hle := length_encodeChar_le hg
    have hcons : encode ((g :: gs).map Utf8.Segment.char)
        = encodeChar g.char ++ encode (gs.map Utf8.Segment.char) := rfl
    rw [hcons, List.length_append, List.length_append]
    split at hsize
    next => omega
    next => omega

/-- A password that need not be text is split into segments, in one way only: each is the form of
a character and stands for it, or it is malformed and stands for U+FFFD. The characters are
written in well-formed UTF-16, in at most two bytes for each byte. Where no byte continues what
stands in front of it, the password can be taken apart. -/
theorem ofText_segments (s : Bytes) :
    (∀ gs, Utf8.Splits gs s ↔ gs = Utf8.segments s)
    ∧ (Utf8.segments s).flatMap Utf8.Segment.bytes = s
    ∧ (∀ g ∈ Utf8.segments s, 1 ≤ g.bytes.length ∧ g.bytes.length ≤ 4
      ∧ (∀ c : Char, g.bytes = String.utf8EncodeChar c → g.char = c)
      ∧ ((∀ c : Char, g.bytes ≠ String.utf8EncodeChar c) → g.char = '\uFFFD'))
    ∧ IsForm ((Utf8.segments s).map Utf8.Segment.char) (ofText s)
    ∧ decode? (ofText s) = some ((Utf8.segments s).map Utf8.Segment.char)
    ∧ (ofText s).length % 2 = 0
    ∧ (ofText s).length ≤ 2 * s.length
    ∧ ∀ rest : Bytes, (∀ b ∈ rest.head?, ¬ (0x80 ≤ b ∧ b ≤ 0xBF)) →
      ofText (s ++ rest) = ofText s ++ ofText rest := by
  have hsplits : Utf8.Splits (Utf8.segments s) s := Utf8.splits_iff.mpr rfl
  obtain ⟨heven, hlength⟩ := length_encode_of_splits hsplits
  refine ⟨fun gs => Utf8.splits_iff, Utf8.flatMap_segments s, ?_, isForm_encode _,
    decode?_encode _, heven, hlength, ?_⟩
  · intro g hg
    obtain ⟨rest, hsegment⟩ := hsplits.exists_isSegment hg
    obtain ⟨hpos, hle⟩ := hsegment.length
    refine ⟨hpos, hle, ?_, hsegment.char_eq_replacement⟩
    intro c hform
    exact hsegment.char_eq hform
  · intro rest hrest
    have hhead : ∀ b ∈ rest.head?, Utf8.isContinuation b = false := by
      intro b hb
      rw [Bool.eq_false_iff]
      intro hcontinues
      obtain ⟨hlow, hhigh⟩ := Utf8.isContinuation_iff.mp hcontinues
      exact hrest b hb ⟨UInt8.le_iff_toNat_le.mpr hlow,
        UInt8.le_iff_toNat_le.mpr (Nat.le_of_lt_succ hhigh)⟩
    unfold ofText Utf8.decode
    rw [Utf8.segments_append s hhead, List.map_append, encode_append]

/-- A sequence that breaks off in front of a letter. -/
theorem ofText_segments_sample :
    (⟨[0xE2, 0x82], '\uFFFD'⟩ : Utf8.Segment) ∈ Utf8.segments [0xE2, 0x82, 0x41]
      ∧ (∀ c : Char, [0xE2, 0x82] ≠ String.utf8EncodeChar c)
      ∧ (⟨[0xE2, 0x82], '\uFFFD'⟩ : Utf8.Segment).char = '\uFFFD'
      ∧ (⟨[0x41], 'A'⟩ : Utf8.Segment) ∈ Utf8.segments [0xE2, 0x82, 0x41]
      ∧ [0x41] = String.utf8EncodeChar 'A'
      ∧ (⟨[0x41], 'A'⟩ : Utf8.Segment).char = 'A'
      ∧ (∀ b ∈ ([0x41] : Bytes).head?, ¬ (0x80 ≤ b ∧ b ≤ 0xBF))
      ∧ ofText ([0xE2, 0x82] ++ [0x41]) = ofText [0xE2, 0x82] ++ ofText [0x41] := by
  have hbroken : (⟨[0xE2, 0x82], '\uFFFD'⟩ : Utf8.Segment) ∈ Utf8.segments [0xE2, 0x82, 0x41] := by
    decide
  have hletter : (⟨[0x41], 'A'⟩ : Utf8.Segment) ∈ Utf8.segments [0xE2, 0x82, 0x41] := by
    decide
  have hnone : ∀ c : Char, [0xE2, 0x82] ≠ String.utf8EncodeChar c := by
    intro c hform
    have hread : Utf8.decode (String.utf8EncodeChar c ++ []) = [c] := Utf8.decode_encode [c]
    rw [← hform] at hread
    obtain rfl : '\uFFFD' = c := (List.cons.inj hread).1
    exact absurd hform (by decide)
  have hhead : ∀ b ∈ ([0x41] : Bytes).head?, ¬ (0x80 ≤ b ∧ b ≤ 0xBF) := by
    decide +kernel
  obtain ⟨-, -, hall, -⟩ := ofText_segments [0xE2, 0x82, 0x41]
  obtain ⟨-, -, -, -, -, -, -, happend⟩ := ofText_segments [0xE2, 0x82]
  have hform : [0x41] = String.utf8EncodeChar 'A' := by decide
  exact ⟨hbroken, hnone, (hall _ hbroken).2.2.2 hnone, hletter, hform,
    (hall _ hletter).2.2.1 'A' hform, hhead, happend [0x41] hhead⟩

end Keystore.Utf16
