import Keystore.Bytes

/-!
# SHA-1

The digest behind both protections of a key store: the trailer that seals the
file and the stream that hides a private key. A message is padded to whole
64-byte blocks and the blocks are folded, one after the other, into a chaining
value of five words.

The number of blocks is known from the message, so the fold recurses on that
number and the digest can be evaluated inside a proof.

Notes on the model:
- A message is given as a whole. Digests over several parts are digests over the parts put
  together.
-/

namespace Keystore.Sha1

/-- The chaining value. -/
structure Chain where
  a : UInt32
  b : UInt32
  c : UInt32
  d : UInt32
  e : UInt32
deriving DecidableEq

/-- The chaining value before the first block. -/
def Chain.initial : Chain :=
  ⟨0x67452301, 0xEFCDAB89, 0x98BADCFE, 0x10325476, 0xC3D2E1F0⟩

/-- Rotation to the left by `n` bits, `0 < n < 32`. -/
def rotate (n w : UInt32) : UInt32 := (w <<< n) ||| (w >>> (32 - n))

/-- The bits of `c` where `b` has ones and of `d` where it has zeros. -/
def choose (b c d : UInt32) : UInt32 := (b &&& c) ||| ((b ^^^ 0xFFFFFFFF) &&& d)

/-- The bits that an odd number of the three words have. -/
def parity (b c d : UInt32) : UInt32 := b ^^^ c ^^^ d

/-- The bits that at least two of the three words have. -/
def majority (b c d : UInt32) : UInt32 := (b &&& c) ||| (b &&& d) ||| (c &&& d)

/-- The value that round `t` mixes in: the rounds come in four groups of twenty,
each with a bit function and a constant of its own. -/
def mix (t : Nat) (s : Chain) : UInt32 :=
  if t < 20 then choose s.b s.c s.d + 0x5A827999
  else if t < 40 then parity s.b s.c s.d + 0x6ED9EBA1
  else if t < 60 then majority s.b s.c s.d + 0x8F1BBCDC
  else parity s.b s.c s.d + 0xCA62C1D6

/-- Round `t` with the word `w` of the message. -/
def round (t : Nat) (s : Chain) (w : UInt32) : Chain :=
  ⟨rotate 5 s.a + mix t s + s.e + w, s.a, rotate 30 s.b, s.c, s.d⟩

/-- The rounds from `t` on, one for each word. -/
def rounds : Nat → Chain → List UInt32 → Chain
  | _, s, [] => s
  | t, s, w :: ws => rounds (t + 1) (round t s w) ws

/-- Continues the message words by `n`; the words stand latest first, so the
ones that the recurrence looks back at are the 3rd, 8th, 14th and 16th. -/
def expand : Nat → List UInt32 → List UInt32
  | 0, ws => ws
  | n + 1, ws =>
    let next := ws.getD 2 0 ^^^ ws.getD 7 0 ^^^ ws.getD 13 0 ^^^ ws.getD 15 0
    expand n (rotate 1 next :: ws)

/-- The eighty words of a block, in the order of the rounds. -/
def schedule (block : Bytes) : List UInt32 :=
  (expand 64 (BigEndian.words block).reverse).reverse

/-- Folds one block into the chaining value. -/
def compress (s : Chain) (block : Bytes) : Chain :=
  let r := rounds 0 s (schedule block)
  ⟨s.a + r.a, s.b + r.b, s.c + r.c, s.d + r.d, s.e + r.e⟩

/-- Folds the first `n` blocks of a padded message. -/
def absorb : Nat → Chain → Bytes → Chain
  | 0, s, _ => s
  | n + 1, s, message => absorb n (compress s (message.take 64)) (message.drop 64)

/-- What is appended to a message of `n` bytes: a one bit, zeros up to eight
bytes short of a block's end, and the length in bits. -/
def padding (n : Nat) : Bytes :=
  let zeros : Bytes := List.replicate ((119 - n % 64) % 64) 0
  0x80 :: zeros ++ BigEndian.u64 (UInt64.ofNat (8 * n))

/-- The digest as bytes. -/
def Chain.bytes (s : Chain) : Bytes :=
  BigEndian.u32 s.a ++ BigEndian.u32 s.b ++ BigEndian.u32 s.c ++ BigEndian.u32 s.d
    ++ BigEndian.u32 s.e

/-- The number of bytes in a digest. -/
abbrev size : Nat := 20

/-- The SHA-1 digest of a message. -/
def digest (message : Bytes) : Bytes :=
  let n := message.length
  (absorb (n / 64 + (if n % 64 < 56 then 1 else 2)) Chain.initial (message ++ padding n)).bytes

/-- Every digest has the same size. -/
theorem length_digest (message : Bytes) : (digest message).length = size := rfl

/-! The empty message, one of three bytes, and one whose padding needs a second block. -/

example : (digest []).hex = Bytes.ascii "da39a3ee5e6b4b0d3255bfef95601890afd80709" := by
  decide +kernel

example :
    (digest (Bytes.ascii "abc")).hex = Bytes.ascii "a9993e364706816aba3e25717850c26c9cd0d89d" := by
  decide +kernel

example : (digest (Bytes.ascii "abcdbcdecdefdefgefghfghighijhijkijkljklmklmnlmnomnopnopq")).hex
    = Bytes.ascii "84983e441c3bd26ebaae4aa1f95129e5e54670f1" := by
  decide +kernel

end Keystore.Sha1
