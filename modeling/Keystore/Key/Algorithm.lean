import Keystore.Der

/-!
# Key algorithms

The algorithms that a private key may be for, with their object identifiers and
the names by which messages call them. Only `rsa` can be stored.

Some algorithms have further identifiers that are hardly used. Not every search
for a key knows them, so a search says how far it reaches.
-/

namespace Keystore.Key

/-- How much a search for a key knows. -/
inductive Reach where
  /-- Each algorithm's own identifier. -/
  | usual
  /-- All identifiers, and all curves. -/
  | full
deriving DecidableEq, Repr

/-- What a key is for. -/
inductive Algorithm where
  | rsa
  | rsaPss
  | ec
  | dsa
  | dh
  | x942Dh
  | x25519
  | x448
  | ed25519
  | ed448
deriving DecidableEq, Repr

namespace Algorithm

/-- All algorithms. -/
def all : List Algorithm := [rsa, rsaPss, ec, dsa, dh, x942Dh, x25519, x448, ed25519, ed448]

/-- The content of the algorithm's object identifier. -/
def oid : Algorithm → Bytes
  | rsa => Der.oidContent 1 2 [840, 113549, 1, 1, 1]
  | rsaPss => Der.oidContent 1 2 [840, 113549, 1, 1, 10]
  | ec => Der.oidContent 1 2 [840, 10045, 2, 1]
  | dsa => Der.oidContent 1 2 [840, 10040, 4, 1]
  | dh => Der.oidContent 1 2 [840, 113549, 1, 3, 1]
  | x942Dh => Der.oidContent 1 2 [840, 10046, 2, 1]
  | x25519 => Der.oidContent 1 3 [101, 110]
  | x448 => Der.oidContent 1 3 [101, 111]
  | ed25519 => Der.oidContent 1 3 [101, 112]
  | ed448 => Der.oidContent 1 3 [101, 113]

/-- The contents of further identifiers of the algorithm. -/
def otherOids : Algorithm → List Bytes
  | rsa => [Der.oidContent 2 5 [8, 1, 1]]
  | ec => [Der.oidContent 1 2 [156, 10197, 1, 301]]
  | dsa =>
    [Der.oidContent 1 3 [14, 3, 2, 12], Der.oidContent 1 3 [14, 3, 2, 13],
      Der.oidContent 1 3 [14, 3, 2, 27], Der.oidContent 1 2 [840, 10040, 4, 3]]
  | _ => []

/-- The name in messages. -/
def name : Algorithm → String
  | rsa => "rsaEncryption"
  | rsaPss => "RSASSA-PSS"
  | ec => "id-ecPublicKey"
  | dsa => "DSA"
  | dh => "dhKeyAgreement"
  | x942Dh => "dhpublicnumber"
  | x25519 => "X25519"
  | x448 => "X448"
  | ed25519 => "ED25519"
  | ed448 => "ED448"

/-- What messages say of the algorithm of a key that may be missing. -/
def nameOf : Option Algorithm → String
  | none => "<none>"
  | some a => a.name

/-- The algorithm with the given object identifier. -/
def ofOid? (reach : Reach) (content : Bytes) : Option Algorithm :=
  all.find? fun a =>
    a.oid == content || (reach == .full && a.otherOids.contains content)

end Algorithm

end Keystore.Key
