import Keystore.Proofs.Instant
import Keystore.Proofs.Record
import Mathlib.Data.List.TakeWhile
import Mathlib.Data.Nat.Digits.Defs

/-!
# Texts for a moment

A moment is given as a number in decimal digits, with blanks and a sign in front of it if need
be, and nothing behind it. `NumberAtFront` says what number a text begins with, without
reading it: the digits go on for as long as there are any, and their value is that of
`Nat.ofDigits`. Reading finds exactly that (`leadingNumber?_eq_some`).

`IsTimestamp` are the texts for a moment, and `parse_isTimestamp` is the result: just these are
accepted, and an entry with such a moment is stamped with the number of the text, whatever
time it is.
-/

namespace Keystore.Instant

/-- The sign `+`. -/
abbrev plus : UInt8 := 0x2B

/-- The sign `-`. -/
abbrev minus : UInt8 := 0x2D

/-- What a row of decimal digits stands for. -/
def decimalValue (digits : Bytes) : Nat :=
  Nat.ofDigits 10 (digits.reverse.map fun b => b.toNat - 0x30)

/-- What may stand between blanks and digits, and whether it makes the number negative. -/
inductive IsSign : Bool → Bytes → Prop
  | none : IsSign false []
  | plus : IsSign false [plus]
  | minus : IsSign true [minus]

/-- A text that begins with a number: blanks, perhaps a sign, and all digits that follow, in
front of some rest. -/
structure NumberAtFront (text : Bytes) (negative : Bool) (digits rest : Bytes) : Prop where
  split : ∃ blanks sign, text = blanks ++ (sign ++ (digits ++ rest))
    ∧ (∀ b ∈ blanks, Bytes.isSpace b = true) ∧ IsSign negative sign
  digits_ne_nil : digits ≠ []
  digits : ∀ b ∈ digits, Bytes.isDigit b = true
  rest : ∀ b, rest.head? = some b → Bytes.isDigit b = false

/-- A text for the moment a number of milliseconds into 1970: blanks, perhaps `+`, and digits
for that number, from the first byte to the last. -/
def IsTimestamp (text : Bytes) (ms : Nat) : Prop :=
  ∃ blanks sign digits, text = blanks ++ (sign ++ digits)
    ∧ (∀ b ∈ blanks, Bytes.isSpace b = true) ∧ (sign = [] ∨ sign = [plus])
    ∧ digits ≠ [] ∧ (∀ b ∈ digits, Bytes.isDigit b = true)
    ∧ decimalValue digits = ms ∧ 1 ≤ ms ∧ ms ≤ millisLimit

/-! ## Digits -/

theorem decimalValue_concat (s : Bytes) (b : UInt8) :
    decimalValue (s ++ [b]) = decimalValue s * 10 + (b.toNat - 0x30) := by
  rw [decimalValue, List.reverse_append, List.map_append, Nat.ofDigits_append]
  simp only [List.reverse_cons, List.reverse_nil, List.nil_append, List.map_cons, List.map_nil,
    Nat.ofDigits_singleton, List.length_singleton, pow_one, decimalValue]
  omega

/-- Digits are added up from the front. -/
theorem ofDecimal_eq (s : Bytes) : Bytes.ofDecimal s = decimalValue s := by
  induction s using List.reverseRecOn with
  | nil => rfl
  | append_singleton s b ih =>
    rw [decimalValue_concat, ← ih, Bytes.ofDecimal, List.foldl_append]
    rfl

/-- A digit is neither a blank nor a sign. -/
theorem of_isDigit {b : UInt8} (h : Bytes.isDigit b = true) :
    Bytes.isSpace b = false ∧ b ≠ plus ∧ b ≠ minus := by
  unfold Bytes.isDigit at h
  unfold Bytes.isSpace
  simp only [Bool.and_eq_true, decide_eq_true_eq, UInt8.le_iff_toNat_le] at h
  simp only [Bool.or_eq_false_iff, Bool.and_eq_false_iff, beq_eq_false_iff_ne, ne_eq,
    decide_eq_false_iff_not, UInt8.le_iff_toNat_le, ← UInt8.toNat_inj, plus, minus,
    UInt8.reduceToNat] at h ⊢
  omega

/-- Digits are told from what follows them. -/
theorem digits_append {digits rest : Bytes} (hdigits : ∀ b ∈ digits, Bytes.isDigit b = true)
    (hrest : ∀ b, rest.head? = some b → Bytes.isDigit b = false) :
    (digits ++ rest).takeWhile Bytes.isDigit = digits
      ∧ (digits ++ rest).dropWhile Bytes.isDigit = rest := by
  rw [List.takeWhile_append_of_pos hdigits, List.dropWhile_append_of_pos hdigits]
  cases rest with
  | nil => exact ⟨List.append_nil digits, rfl⟩
  | cons b rest =>
    have hb : ¬ Bytes.isDigit b = true := Bool.eq_false_iff.mp (hrest b rfl)
    rw [List.takeWhile_cons_of_neg hb, List.dropWhile_cons_of_neg hb, List.append_nil]
    exact ⟨rfl, rfl⟩

/-! ## Reading the number -/

/-- Behind the blanks stands the first byte that is none. -/
theorem dropWhile_isSpace {blanks sign digits rest : Bytes} {negative : Bool}
    (hblanks : ∀ b ∈ blanks, Bytes.isSpace b = true) (hsign : IsSign negative sign)
    (hnil : digits ≠ []) (hdigits : ∀ b ∈ digits, Bytes.isDigit b = true) :
    (blanks ++ (sign ++ (digits ++ rest))).dropWhile Bytes.isSpace = sign ++ (digits ++ rest) := by
  rw [List.dropWhile_append_of_pos hblanks]
  obtain ⟨d, ds, rfl⟩ := List.exists_cons_of_ne_nil hnil
  have hd := (of_isDigit (hdigits d List.mem_cons_self)).1
  cases hsign with
  | none => exact List.dropWhile_cons_of_neg (by simp [hd])
  | plus | minus => exact List.dropWhile_cons_of_neg (by decide)

/-- What reading comes to, once the blanks are gone and the sign is known. -/
theorem leadingNumber?_of_isSign {text sign after : Bytes} {negative : Bool}
    (hsign : IsSign negative sign) (hbody : text.dropWhile Bytes.isSpace = sign ++ after)
    (hbare : sign = [] → after.head? ≠ some plus ∧ after.head? ≠ some minus) :
    leadingNumber? text = if after.takeWhile Bytes.isDigit = [] then none
      else some (if negative then -(decimalValue (after.takeWhile Bytes.isDigit) : Int)
        else decimalValue (after.takeWhile Bytes.isDigit), after.dropWhile Bytes.isDigit) := by
  unfold leadingNumber?
  rw [hbody]
  simp only [ofDecimal_eq]
  cases hsign with
  | none =>
    obtain ⟨hplus, hminus⟩ := hbare rfl
    have hplus' : (after.head? == some 0x2B) = false := beq_eq_false_iff_ne.mpr hplus
    have hminus' : (after.head? == some 0x2D) = false := beq_eq_false_iff_ne.mpr hminus
    simp only [List.nil_append, hplus', hminus', Bool.or_false, Bool.false_eq_true, if_false]
  | plus => rfl
  | minus => rfl

/-- Each text has a sign or none behind its blanks. -/
theorem exists_isSign (body : Bytes) : ∃ negative sign after, IsSign negative sign
    ∧ body = sign ++ after
    ∧ (sign = [] → after.head? ≠ some plus ∧ after.head? ≠ some minus) := by
  by_cases hplus : body.head? = some plus
  · obtain ⟨after, rfl⟩ := List.head?_eq_some_iff.mp hplus
    exact ⟨_, _, after, .plus, rfl, nofun⟩
  by_cases hminus : body.head? = some minus
  · obtain ⟨after, rfl⟩ := List.head?_eq_some_iff.mp hminus
    exact ⟨_, _, after, .minus, rfl, nofun⟩
  exact ⟨_, _, body, .none, rfl, fun _ => ⟨hplus, hminus⟩⟩

/-- The number at the front is read. -/
theorem leadingNumber?_of_numberAtFront {text digits rest : Bytes} {negative : Bool}
    (h : NumberAtFront text negative digits rest) :
    leadingNumber? text = some (if negative then -(decimalValue digits : Int)
      else decimalValue digits, rest) := by
  obtain ⟨blanks, sign, htext, hblanks, hsign⟩ := h.split
  obtain ⟨htake, hdrop⟩ := digits_append h.digits h.rest
  have hbody : text.dropWhile Bytes.isSpace = sign ++ (digits ++ rest) := by
    rw [htext, dropWhile_isSpace hblanks hsign h.digits_ne_nil h.digits]
  rw [leadingNumber?_of_isSign hsign hbody, htake, hdrop, if_neg h.digits_ne_nil]
  -- the first byte is a digit
  obtain ⟨d, ds, rfl⟩ := List.exists_cons_of_ne_nil h.digits_ne_nil
  obtain ⟨-, hplus, hminus⟩ := of_isDigit (h.digits d List.mem_cons_self)
  exact fun _ => ⟨fun hd => hplus (Option.some.inj hd), fun hd => hminus (Option.some.inj hd)⟩

/-- What is read is the number at the front. -/
theorem exists_numberAtFront {text rest : Bytes} {value : Int}
    (h : leadingNumber? text = some (value, rest)) :
    ∃ negative digits, NumberAtFront text negative digits rest
      ∧ value = if negative then -(decimalValue digits : Int) else decimalValue digits := by
  obtain ⟨negative, sign, after, hsign, hbody, hbare⟩ :=
    exists_isSign (text.dropWhile Bytes.isSpace)
  rw [leadingNumber?_of_isSign hsign hbody hbare] at h
  obtain ⟨hnil, hread⟩ := Option.ite_none_left_eq_some.mp h
  obtain ⟨rfl, rfl⟩ := Prod.mk.inj (Option.some.inj hread)
  refine ⟨negative, after.takeWhile Bytes.isDigit, ⟨?_, hnil, ?_, ?_⟩, rfl⟩
  · refine ⟨text.takeWhile Bytes.isSpace, sign, ?_, fun b hb => List.mem_takeWhile_imp hb, hsign⟩
    rw [List.takeWhile_append_dropWhile, ← hbody, List.takeWhile_append_dropWhile]
  · exact fun b hb => List.mem_takeWhile_imp hb
  · intro b hb
    have hfirst := List.head?_dropWhile_not Bytes.isDigit after
    rw [hb] at hfirst
    exact hfirst

/-! ## Texts for a moment -/

/-- Such a text is a number from the first byte to the last. -/
theorem isTimestamp_iff {text : Bytes} {ms : Nat} : IsTimestamp text ms ↔
    ∃ digits, NumberAtFront text false digits [] ∧ decimalValue digits = ms ∧ 1 ≤ ms
      ∧ ms ≤ millisLimit := by
  constructor
  · rintro ⟨blanks, sign, digits, htext, hblanks, hsign, hnil, hdigits, hvalue⟩
    refine ⟨digits, ⟨⟨blanks, sign, ?_, hblanks, ?_⟩, hnil, hdigits, nofun⟩, hvalue⟩
    · rw [htext, List.append_nil]
    · rcases hsign with rfl | rfl
      · exact .none
      · exact .plus
  · rintro ⟨digits, ⟨⟨blanks, sign, htext, hblanks, hsign⟩, hnil, hdigits, -⟩, hvalue⟩
    rw [List.append_nil] at htext
    refine ⟨blanks, sign, digits, htext, hblanks, ?_, hnil, hdigits, hvalue⟩
    cases hsign with
    | none => exact .inl rfl
    | plus => exact .inr rfl

/-- A text for a moment is accepted. -/
theorem IsTimestamp.parse {text : Bytes} {ms : Nat} (h : IsTimestamp text ms) :
    parse text = .ok (ofMillis (Int64.ofInt ms)) := by
  obtain ⟨digits, hfront, rfl, hpos, hlimit⟩ := isTimestamp_iff.mp h
  have hhigh : decimalValue digits ≤ 9223372036854 := hlimit
  have hmax : Int64.maxValue.toInt = 9223372036854775807 := by decide
  have hmin : Int64.minValue.toInt = -9223372036854775808 := by decide
  unfold Instant.parse
  rw [leadingNumber?_of_numberAtFront hfront]
  dsimp only
  rw [if_neg Bool.false_ne_true, if_neg (by omega), if_neg (by simp), if_neg (by omega)]

/-- Whatever is accepted is a text for a moment, if its number is not one of those that fit
64 bits as milliseconds but not as nanoseconds. -/
theorem isTimestamp_of_parse {text : Bytes} {t : Instant} (h : Instant.parse text = .ok t)
    (hrange : ∀ negative digits rest, NumberAtFront text negative digits rest →
      decimalValue digits ≤ millisLimit ∨ 2 ^ 63 ≤ decimalValue digits) :
    ∃ ms, IsTimestamp text ms := by
  obtain ⟨ms, hnumber, hpos, -⟩ := exists_of_parse h
  obtain ⟨negative, digits, hfront, hvalue⟩ := exists_numberAtFront hnumber
  cases negative with
  | true =>
    rw [if_pos rfl] at hvalue
    omega
  | false =>
    rw [if_neg Bool.false_ne_true, Int.natCast_inj] at hvalue
    rcases hrange false digits [] hfront with hlimit | hlarge
    · exact ⟨ms, isTimestamp_iff.mpr ⟨digits, hfront, hvalue.symm, hpos, hvalue ▸ hlimit⟩⟩
    · -- such a number does not fit 64 bits
      have hmax : Int64.maxValue.toInt = 9223372036854775807 := by decide
      unfold Instant.parse at h
      rw [hnumber] at h
      dsimp only at h
      rw [if_pos (.inr (by omega))] at h
      exact nomatch h

/-- Whatever is not accepted is malformed input. -/
theorem kind_of_parse_eq_error {text : Bytes} {f : Fault} (h : parse text = .error f) :
    f.kind = .malformedInput := by
  unfold parse at h
  split at h
  · obtain rfl := Except.error.inj h
    rfl
  · split at h
    · obtain rfl := Except.error.inj h
      rfl
    · split at h
      · obtain rfl := Except.error.inj h
        rfl
      · split at h
        · obtain rfl := Except.error.inj h
          rfl
        · exact nomatch h

/-! ## Stamps -/

/-- The eight bytes of a number of milliseconds. -/
def IsStamp (ms : Nat) (stamp : Bytes) : Prop := stamp.length = 8 ∧ BigEndian.number stamp = ms

/-- Entries with a moment are stamped with a number of milliseconds, at any time, and nothing is
reported about it. -/
structure Stamps (t : Instant) (ms : Nat) : Prop where
  certificate : ∀ e : CertificateEntry, e.time = t → e.Storable → ∀ s : Supply,
    ∃ stamp back, IsStamp ms stamp ∧ ∀ now, e.record.run.run { s with now }
      = (.ok (BigEndian.u32 Record.certificateTag ++ Field.ofText e.name ++ stamp ++ back),
          { s with now })
  key : ∀ (passwords : Passwords) (e : KeyEntry), e.time = t → e.Storable → ∀ s : Supply,
    KeyProtector.saltSize ≤ s.random.length →
    ∃ stamp back, IsStamp ms stamp ∧ ∀ now, (e.record passwords).run.run { s with now }
      = (.ok (BigEndian.u32 Record.keyTag ++ Field.ofText e.name ++ stamp ++ back),
          ({ s with now }.drawn KeyProtector.saltSize).noted (Record.chainNotices e))

theorem or_of_ne_unset {t : Instant} (h : t ≠ .unset) (now : Instant) : t.or now = t := if_neg h

theorem clockNotices_of_ne_unset {t : Instant} (h : t ≠ .unset) (name : Bytes) :
    Record.clockNotices name t = [] := if_neg h

theorem isStamp_time {ms : Nat} (h : ms ≤ millisLimit) :
    IsStamp ms (Field.time (ofMillis (Int64.ofInt ms))) :=
  ⟨BigEndian.length_u64 _, (BigEndian.number_u64 _).trans (toNat_millis_ofMillis h)⟩

/-- A positive number of milliseconds is what its moment stamps. -/
theorem stamps_ofMillis {ms : Nat} (hpos : 0 < ms) (hlimit : ms ≤ millisLimit) :
    Stamps (ofMillis (Int64.ofInt ms)) ms := by
  have hset := ofMillis_ne_unset hpos hlimit
  constructor
  · intro e he hstorable s
    refine ⟨_, Record.certificatePart e.der, isStamp_time hlimit, fun now => ?_⟩
    refine CertificateEntry.run_record_eq_ok.mpr ⟨hstorable, ?_, ?_⟩
    · rw [CertificateEntry.layout, he, or_of_ne_unset hset]
    · rw [he, clockNotices_of_ne_unset hset, Supply.noted_nil]
  · intro passwords e he hstorable s hrandom
    refine ⟨_, Field.ofBlob (Key.stored (passwords.forKey e.name)
      (s.random.take KeyProtector.saltSize) e.secret) ++ Record.chainPart e.chain,
      isStamp_time hlimit, fun now => ?_⟩
    refine KeyEntry.run_record_eq_ok.mpr ⟨hstorable, hrandom, ?_, ?_⟩
    · rw [KeyEntry.layout, he, or_of_ne_unset hset, List.append_assoc _ (Field.ofBlob _)]
    · rw [KeyEntry.notices, he, clockNotices_of_ne_unset hset, List.nil_append]

/-- Leaving out the numbers that fit 64 bits as milliseconds but not as nanoseconds, just the
texts for a moment are accepted, and all others are malformed input. What is accepted is the
moment so many milliseconds into 1970, never the one that stands for none, and entries with it
are stamped with that number. -/
theorem parse_isTimestamp (text : Bytes)
    (hrange : ∀ negative digits rest, NumberAtFront text negative digits rest →
      decimalValue digits ≤ 9223372036854 ∨ 2 ^ 63 ≤ decimalValue digits) :
    ((∃ t, Instant.parse text = .ok t) ↔ ∃ ms, IsTimestamp text ms)
      ∧ ((¬ ∃ ms, IsTimestamp text ms) →
          ∃ f, Instant.parse text = .error f ∧ f.kind = .malformedInput)
      ∧ ∀ ms, IsTimestamp text ms → ∃ t, Instant.parse text = .ok t
        ∧ t.nanos.toInt = ms * 1000000 ∧ t ≠ .unset ∧ Stamps t ms := by
  have haccepts : (∃ t, Instant.parse text = .ok t) ↔ ∃ ms, IsTimestamp text ms := by
    constructor
    · rintro ⟨t, ht⟩
      exact isTimestamp_of_parse ht hrange
    · rintro ⟨ms, hms⟩
      exact ⟨_, hms.parse⟩
  refine ⟨haccepts, ?_, ?_⟩
  · intro hother
    rcases hparse : Instant.parse text with f | t
    · exact ⟨f, rfl, kind_of_parse_eq_error hparse⟩
    · exact absurd (haccepts.mp ⟨t, hparse⟩) hother
  · intro ms hms
    obtain ⟨-, -, -, hpos, hlimit⟩ := isTimestamp_iff.mp hms
    exact ⟨_, hms.parse, toInt_nanos_ofMillis hlimit, ofMillis_ne_unset hpos hlimit,
      stamps_ofMillis hpos hlimit⟩

/-- The number of a text can be read off to see its size. -/
theorem decimalValue_of_leadingNumber? {text rest digits rest' : Bytes} {value : Int}
    {negative : Bool} (h : leadingNumber? text = some (value, rest))
    (hfront : NumberAtFront text negative digits rest') : decimalValue digits = value.natAbs := by
  rw [leadingNumber?_of_numberAtFront hfront] at h
  obtain ⟨rfl, -⟩ := Prod.mk.inj (Option.some.inj h)
  cases negative with
  | false => rfl
  | true =>
    rw [if_pos rfl, Int.natAbs_neg]
    rfl

/-- A blank, a sign and zeros in front are fine, but a blank behind is not. -/
theorem parse_isTimestamp_sample :
    IsTimestamp (Bytes.ascii " +0042") 42
      ∧ (∃ t, Instant.parse (Bytes.ascii " +0042") = .ok t ∧ t.nanos.toInt = (42 : Nat) * 1000000
        ∧ t ≠ .unset ∧ Stamps t 42)
      ∧ ¬ ∃ ms, IsTimestamp (Bytes.ascii "42 ") ms := by
  have hfront : leadingNumber? (Bytes.ascii " +0042") = some (42, []) := by decide
  have hbehind : leadingNumber? (Bytes.ascii "42 ") = some (42, [0x20]) := by decide
  have hrefused : ¬ ∃ t, Instant.parse (Bytes.ascii "42 ") = .ok t := by
    rintro ⟨t, ht⟩
    exact nomatch ht
  have hsample : IsTimestamp (Bytes.ascii " +0042") 42 :=
    ⟨[0x20], [plus], Bytes.ascii "0042", rfl, List.all_eq_true.mp rfl, .inr rfl, by decide,
      List.all_eq_true.mp rfl, by decide, by decide, by decide⟩
  refine ⟨hsample, ?_, ?_⟩
  · refine (parse_isTimestamp (Bytes.ascii " +0042") fun _ _ _ h => .inl ?_).2.2 42 hsample
    rw [decimalValue_of_leadingNumber? hfront h]
    decide
  · rw [← (parse_isTimestamp (Bytes.ascii "42 ") fun _ _ _ h => .inl ?_).1]
    · exact hrefused
    · rw [decimalValue_of_leadingNumber? hbehind h]
      decide

end Keystore.Instant
