import Keystore.Fault

/-!
# Moments in time

Entries are stamped with a moment. Inside, a moment is a signed 64-bit count of
nanoseconds since the start of 1970; in files and in texts it is a count of
milliseconds. The start of 1970 itself stands for "not given".

`Instant.parse` reads a text as a count of milliseconds: blanks, a sign, digits,
and nothing after them. Only positive counts are accepted, since zero would mean
that no moment is given.

Notes on the model:
- Arithmetic is modulo `2 ^ 64`. Counts of milliseconds above 9223372036854 that still fit 64
  bits have no count of nanoseconds, and what a process makes of them is not determined;
  nothing is said of them.
-/

namespace Keystore

/-- A moment, in nanoseconds since the start of 1970. -/
structure Instant where
  nanos : Int64
deriving DecidableEq

namespace Instant

/-- What stands for a moment that is not given. -/
def unset : Instant := ⟨0⟩

/-- Whole milliseconds, cut off toward zero. -/
def millis (t : Instant) : Int64 := t.nanos / 1000000

/-- The moment that is `ms` milliseconds after the start of 1970. -/
def ofMillis (ms : Int64) : Instant := ⟨ms * 1000000⟩

/-- The number at the front of a text and what follows it: blanks, perhaps a
sign, and at least one digit. -/
def leadingNumber? (text : Bytes) : Option (Int × Bytes) :=
  let body := text.dropWhile Bytes.isSpace
  let negative := body.head? == some 0x2D
  let signed := negative || body.head? == some 0x2B
  let digits := if signed then body.drop 1 else body
  let value := Bytes.ofDecimal (digits.takeWhile Bytes.isDigit)
  if digits.takeWhile Bytes.isDigit = [] then none
  else some (if negative then -(value : Int) else value, digits.dropWhile Bytes.isDigit)

/-- Reads a positive count of milliseconds. A number that does not fit 64 bits is
reported as such even if the text goes on after it. -/
def parse (text : Bytes) : Except Fault Instant :=
  match leadingNumber? text with
  | none => .error (.timestampNotNumber text)
  | some (ms, rest) =>
    if ms < Int64.minValue.toInt ∨ Int64.maxValue.toInt < ms then
      .error (.timestampOutOfRange text)
    else if rest ≠ [] then .error (.timestampNotNumber text)
    else if ms ≤ 0 then .error (.timestampNotPositive text)
    else .ok (ofMillis (Int64.ofInt ms))

end Instant

end Keystore
