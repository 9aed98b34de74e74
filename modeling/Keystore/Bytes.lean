/-!
# Byte strings

Everything this library reads, writes or says is a string of bytes: key store
files and certificates, but also names, passwords, paths and messages, because
nothing promises that a name or a path is valid text in any encoding. A list is
the form that the proofs recurse on, so it is the form that runs.

The texts of the library's own messages are plain ASCII; `Bytes.ascii` turns
such a literal into its bytes, one per character.

Numbers stand in files and in digests with their highest byte first; they are in
`BigEndian`.
-/

namespace Keystore

/-- A string of bytes. -/
abbrev Bytes := List UInt8

namespace Bytes

/-- The bytes of an ASCII text. -/
def ascii (text : String) : Bytes :=
  text.toList.map fun c => UInt8.ofNat c.toNat

/-- A number in decimal digits. -/
def decimal (n : Nat) : Bytes :=
  (Nat.toDigits 10 n).map fun c => UInt8.ofNat c.toNat

/-- The lower-case hexadecimal digit of a value below sixteen. -/
def hexDigit (n : Nat) : UInt8 :=
  if n < 10 then UInt8.ofNat (0x30 + n) else UInt8.ofNat (0x57 + n)

/-- Two lower-case hexadecimal digits for each byte. -/
def hex (s : Bytes) : Bytes :=
  s.flatMap fun b => [hexDigit (b.toNat / 16), hexDigit (b.toNat % 16)]

/-- A blank: a space, or one of tab, line feed, vertical tab, form feed and
carriage return. -/
def isSpace (b : UInt8) : Bool := b == 0x20 || (0x09 ≤ b && b ≤ 0x0D)

/-- A decimal digit. -/
def isDigit (b : UInt8) : Bool := 0x30 ≤ b && b ≤ 0x39

/-- The lower-case form of an ASCII letter. -/
def lower (b : UInt8) : UInt8 := if 0x41 ≤ b ∧ b ≤ 0x5A then b + 0x20 else b

/-- The number that a row of decimal digits stands for. -/
def ofDecimal (s : Bytes) : Nat := s.foldl (fun n b => n * 10 + (b.toNat - 0x30)) 0

/-- The zero byte. Where a name is handed to the operating system, or a message
is shown, the text ends in front of the first one. -/
abbrev nul : UInt8 := 0

/-- The part of a text in front of its first zero byte. -/
def untilNul (s : Bytes) : Bytes := s.takeWhile (· != nul)

/-- What follows `start` in `s`, if `s` begins with it. -/
def afterPrefix? : (start s : Bytes) → Option Bytes
  | [], s => some s
  | _ :: _, [] => none
  | p :: ps, b :: s => if p = b then afterPrefix? ps s else none

/-- Whether `s` begins with `start`. -/
def startsWith (s start : Bytes) : Bool := (afterPrefix? start s).isSome

/-- Splits at the first `mark`, which belongs to neither part; `none` for the
second part when there is no mark. -/
def splitAtMark (mark : UInt8) (s : Bytes) : Bytes × Option Bytes :=
  match s.span (· != mark) with
  | (front, []) => (front, none)
  | (front, _ :: back) => (front, some back)

/-- Drops the bytes satisfying `p` from the end. -/
def dropEndWhile (p : UInt8 → Bool) (s : Bytes) : Bytes :=
  (s.reverse.dropWhile p).reverse

/-- What is dropped from the end are bytes satisfying `p`. -/
theorem exists_eq_dropEndWhile_append (p : UInt8 → Bool) (s : Bytes) :
    ∃ back, s = dropEndWhile p s ++ back ∧ ∀ b ∈ back, p b = true := by
  refine ⟨(s.reverse.takeWhile p).reverse, ?_, ?_⟩
  · rw [dropEndWhile, ← List.reverse_append, List.takeWhile_append_dropWhile,
      List.reverse_reverse]
  · intro b hb
    exact List.all_eq_true.mp List.all_takeWhile b (List.mem_reverse.mp hb)

/-- Bytes at the end are dropped as far as they satisfy `p`. -/
theorem dropEndWhile_append {p : UInt8 → Bool} {s back : Bytes} (hs : ∀ b ∈ s, p b = false)
    (hback : ∀ b ∈ back, p b = true) : dropEndWhile p (s ++ back) = s := by
  have hdropped : (s ++ back).reverse.dropWhile p = s.reverse := by
    rw [List.reverse_append, List.dropWhile_append_of_pos fun b hb =>
      hback b (List.mem_reverse.mp hb)]
    cases h : s.reverse with
    | nil => rfl
    | cons b bs =>
      have hb : b ∈ s := List.mem_reverse.mp (h ▸ List.mem_cons_self)
      exact List.dropWhile_cons_of_neg (Bool.eq_false_iff.mp (hs b hb))
  rw [dropEndWhile, hdropped, List.reverse_reverse]

/-- What follows a prefix is found behind it. -/
theorem afterPrefix?_append (start rest : Bytes) :
    afterPrefix? start (start ++ rest) = some rest := by
  induction start with
  | nil => rfl
  | cons p ps ih => simp [afterPrefix?, ih]

/-- The only text with a prefix and a given remainder is their concatenation. -/
theorem eq_append_of_afterPrefix? {start s rest : Bytes}
    (h : afterPrefix? start s = some rest) : s = start ++ rest := by
  fun_induction afterPrefix? start s with
  | case1 s => simpa using h
  | case2 => simp at h
  | case3 ps b s ih => simp [ih h]
  | case4 => simp at h

end Bytes

end Keystore

namespace Keystore.BigEndian

/-- The two bytes of a 16-bit number. -/
def u16 (n : UInt16) : Bytes := [(n >>> 8).toUInt8, n.toUInt8]

/-- The four bytes of a 32-bit number. -/
def u32 (n : UInt32) : Bytes :=
  [(n >>> 24).toUInt8, (n >>> 16).toUInt8, (n >>> 8).toUInt8, n.toUInt8]

/-- The eight bytes of a 64-bit number. -/
def u64 (n : UInt64) : Bytes := u32 (n >>> 32).toUInt32 ++ u32 n.toUInt32

/-- The 32-bit number of four bytes. -/
def word (b0 b1 b2 b3 : UInt8) : UInt32 :=
  (b0.toUInt32 <<< 24) ||| (b1.toUInt32 <<< 16) ||| (b2.toUInt32 <<< 8) ||| b3.toUInt32

/-- The number of any size that bytes stand for. -/
def number (s : Bytes) : Nat := s.foldl (fun n b => n * 256 + b.toNat) 0

/-- The 32-bit numbers that stand one after the other; an incomplete last one is dropped. -/
def words : Bytes → List UInt32
  | b0 :: b1 :: b2 :: b3 :: rest => word b0 b1 b2 b3 :: words rest
  | _ => []

/-! A number takes up as many bytes as its size says. -/

theorem length_u32 (n : UInt32) : (u32 n).length = 4 := rfl

theorem length_u64 (n : UInt64) : (u64 n).length = 8 := rfl

end Keystore.BigEndian
