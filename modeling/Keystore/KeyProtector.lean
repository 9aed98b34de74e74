import Keystore.Fault
import Keystore.Sha1
import Keystore.Text

/-!
# Hiding a key under a password

A key is hidden by adding a stream of bytes to it, bit by bit. The stream is a
chain of digests: the first is over the password and a random salt, each further
one over the password and the digest before it. The protected key is the salt,
the hidden bytes, and a digest over the password and the key, by which a wrong
password shows.

`unprotect` undoes `protect` and refuses everything that `protect` does not
produce under the password.

Notes on the model:
- The number of digests is known beforehand, so the chain is made by recursion on it. A loop
  that takes one digest after the other until there are enough bytes makes the same chain:
  that loop is `Making.Runs`, and it is proved to make what is written.
- A digest is never refused here, and comparing two of them is equality of lists. That the
  comparison always takes the same time, and that secrets are wiped from memory afterwards,
  has no counterpart.
-/

namespace Keystore.KeyProtector

/-- The number of bytes in a salt. -/
abbrev saltSize : Nat := Sha1.size

/-- The first `n` digests of the chain that starts from `seed`. -/
def digests (password : Bytes) : Nat → Bytes → List Bytes
  | 0, _ => []
  | n + 1, seed =>
    let d := Sha1.digest (password ++ seed)
    d :: digests password n d

/-- The first `n` bytes of the stream for a password in UTF-16 and a salt. -/
def keystream (password salt : Bytes) (n : Nat) : Bytes :=
  ((digests password ((n + (Sha1.size - 1)) / Sha1.size) salt).flatten).take n

/-- Adds two rows of bytes bit by bit. -/
def xor (a b : Bytes) : Bytes := List.zipWith (· ^^^ ·) a b

/-- The digest by which a wrong password shows. -/
def check (password plain : Bytes) : Bytes := Sha1.digest (password ++ plain)

/-- Hides `plain` under a password in UTF-16. -/
def hide (password salt plain : Bytes) : Bytes :=
  salt ++ xor plain (keystream password salt plain.length) ++ check password plain

/-- Hides a key under a password, with a salt of the right size. -/
def protect (password salt plain : Bytes) : Except Fault Bytes :=
  if salt.length = saltSize then .ok (hide (Utf16.ofText password) salt plain)
  else .error .saltSize

/-- Recovers a key. -/
def unprotect (password blob : Bytes) : Except Fault Bytes :=
  let size := blob.length
  if size < saltSize + Sha1.size then .error .protectedKeyTooShort
  else
    let password := Utf16.ofText password
    let salt := blob.take saltSize
    let rest := blob.drop saltSize
    let hidden := rest.take (size - saltSize - Sha1.size)
    let plain := xor hidden (keystream password salt hidden.length)
    if check password plain = rest.drop (size - saltSize - Sha1.size) then .ok plain
    else .error .wrongPassword

end Keystore.KeyProtector
