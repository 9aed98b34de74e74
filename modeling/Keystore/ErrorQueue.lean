import Keystore.Bytes

/-!
# The queue of error codes

The source of random bytes and the readers of keys leave error codes in a queue
that holds a limited number of them; when it is full the oldest goes. Reading
the queue empties it and words each code. A code is made of the number of a
library and the number of a reason.
-/

namespace Keystore

/-- An error of a library. -/
structure ErrorCode where
  library : Nat
  reason : Nat
deriving DecidableEq

namespace ErrorCode

open Bytes (ascii decimal)

/-- Both numbers in one. -/
def number (e : ErrorCode) : Nat := e.library <<< 23 ||| e.reason

/-- The upper-case hexadecimal digits of a number, at least eight. -/
def hexDigits (n : Nat) : Bytes :=
  let digits := (Nat.toDigits 16 n).map fun c => UInt8.ofNat c.toUpper.toNat
  List.replicate (8 - digits.length) 0x30 ++ digits

/-- The wording of an error. -/
def text (e : ErrorCode) : Bytes :=
  ascii "error:" ++ hexDigits e.number ++ ascii ":lib(" ++ decimal e.library ++ ascii ")::reason("
    ++ decimal e.reason ++ ascii ")"

end ErrorCode

namespace ErrorQueue

/-- The most codes that the queue holds. -/
abbrev capacity : Nat := 15

/-- Adds a code at the end. -/
def push (queue : List ErrorCode) (e : ErrorCode) : List ErrorCode :=
  let queue := queue ++ [e]
  queue.drop (queue.length - capacity)

/-- The codes up to the first that is zero, which reads as the end of the queue. -/
def front (queue : List ErrorCode) : List ErrorCode := queue.takeWhile (·.number != 0)

/-- Empties the queue up to its end: the wordings, and what stays behind. -/
def drain (queue : List ErrorCode) : Bytes × List ErrorCode :=
  let codes := front queue
  (((codes.map ErrorCode.text).intersperse (Bytes.ascii "; ")).flatten,
    queue.drop (codes.length + 1))

end ErrorQueue

end Keystore
