import Keystore.Curve.Description
import Keystore.Fault

/-!
# Private keys

A private key comes in one of two forms: as a PKCS#8 structure, which names its
algorithm and wraps the algorithm's own encoding, or as that encoding alone
(PKCS#1 for RSA and similar ones for DSA and elliptic curves). Either way a
`Key` keeps the algorithm and its own encoding, so it does not matter later
which form the key came in.

A key is read as far as it takes to use it. The numbers of an RSA or DSA key are
not checked against each other; but a key that comes without its public part has
to allow computing it, and the public point of an elliptic curve key has to be
on the curve.

Only RSA keys can be stored. The key is framed as `privateInfo`, that is protected,
and the protected key is framed as `protectedInfo`. Both frames are fixed and hold
nothing but their payload.

Notes on the model:
- A key is what is written of it, its own encoding. An object that holds the numbers of a
  key, and writes them anew when it is stored, has the same encoding (`rsa?` writes anew).
-/

/-! ## Parameters of RSASSA-PSS

A key for RSASSA-PSS may be bound to a digest, to a mask generation function with
a digest of its own, and to two numbers. The digests have to be known ones. They
may be named by themselves or by a signature algorithm that uses them. -/

namespace Keystore.Key.Pss

open Der

/-- The identifiers of digests, and of signature algorithms with RSA that stand for
the digests that they use. -/
def digestOids : List Bytes :=
  [4, 5].map (fun n => oidContent 1 2 [840, 113549, 2, n]) ++
  [3, 4, 5, 11, 12, 13, 14, 15, 16].map (fun n => oidContent 1 2 [840, 113549, 1, 1, n]) ++
  [26, 29].map (fun n => oidContent 1 3 [14, 3, 2, n]) ++
  (List.range 12).map (fun n => oidContent 2 16 [840, 1, 101, 3, 4, 2, n + 1]) ++
  [13, 14, 15, 16].map (fun n => oidContent 2 16 [840, 1, 101, 3, 4, 3, n]) ++
  [oidContent 1 3 [36, 3, 2, 1], oidContent 1 3 [36, 3, 3, 1, 2]] ++
  [oidContent 1 0 [10118, 3, 0, 55]] ++
  [[1, 16], [2, 8]].map (fun last => oidContent 1 3 ([6, 1, 4, 1, 1722, 12, 2] ++ last)) ++
  [oidContent 1 2 [156, 10197, 1, 401], oidContent 1 2 [156, 10197, 1, 504]]

/-- The identifier of the mask generation function. -/
def maskOid : Bytes := oidContent 1 2 [840, 113549, 1, 1, 8]

/-- A digest that is known. -/
def isDigest (e : Element) : Bool :=
  ((AlgorithmIdentifier.ofElement? e).map fun a => digestOids.contains a.oid).getD false

/-- The mask generation function with a digest that is known. -/
def isMask (e : Element) : Bool :=
  match AlgorithmIdentifier.ofElement? e with
  | some ⟨name, some digest⟩ => name == maskOid && isDigest digest
  | _ => false

/-- An element wrapped in the tag `n` that satisfies `p`. -/
def wraps (n : Nat) (p : Element → Bool) (e : Element) : Bool := ((e.wrapped? n).map p).getD false

/-- Parameters for RSASSA-PSS. -/
def areParameters (e : Element) : Bool :=
  match e.sequence? with
  | some es =>
    let (digest, es) := optional (Tag.context 0) es
    let (mask, es) := optional (Tag.context 1) es
    let (saltSize, es) := optional (Tag.context 2) es
    let (trailer, es) := optional (Tag.context 3) es
    absentOr (wraps 0 isDigest) digest && absentOr (wraps 1 isMask) mask
      && absentOr (wraps 2 Element.isInteger) saltSize
      && absentOr (wraps 3 Element.isInteger) trailer && es.isEmpty
  | none => false

end Keystore.Key.Pss

/-! ## Keys -/

namespace Keystore

/-- A key of some algorithm. -/
structure Key where
  algorithm : Key.Algorithm
  /-- The private key in the algorithm's own encoding; a public key has none. -/
  secret : Option Bytes
deriving DecidableEq

namespace Key

open Der

/-- What messages say of a key that may be missing. -/
def algorithmName (k : Option Key) : String := Algorithm.nameOf (k.map Key.algorithm)

/-! ## RSA -/

/-- One more prime of an RSA key, written anew: the prime, its exponent, its
coefficient. -/
def prime? (e : Element) : Option Bytes :=
  match e.sequence? with
  | some [r, d, t] => ([r, d, t].mapM Element.magnitude?).map fun ns => sequence (ns.map positive)
  | _ => none

/-- The further primes of an RSA key, written anew. A key of version 1 has to have
some. -/
def primes? (version : Int) : List Element → Option (List Bytes)
  | [] => if version = 1 then none else some []
  | [e] =>
    match (e.row? Tag.sequence).bind (·.mapM prime?) with
    | none => none
    | some ps => if version = 1 ∧ ps = [] then none else some [sequence ps]
  | _ => none

/-- The content of an integer of 32 bits, zero with one byte. -/
def versionContent (content : Bytes) : Bytes := if content = [] then [0] else content

/-- An RSA key, written anew: a version, eight numbers, perhaps further primes. -/
def rsa? (e : Element) : Option Bytes :=
  match e.sequence? with
  | some (version :: parts) =>
    match version.small?, (parts.take 8).mapM Element.magnitude? with
    | some v, some numbers =>
      if numbers.length = 8 then
        (primes? v (parts.drop 8)).map fun primes =>
          sequence (primitive Tag.integer (versionContent version.content) ::
            numbers.map positive ++ primes)
      else none
    | _, _ => none
  | _ => none

/-! ## Elliptic curves -/

/-- Whether a wrapped bit string encodes a point of a curve. -/
def isPointOf (c : Curve) (e : Element) : Bool :=
  (((e.wrapped? 1).bind Element.bitString?).map fun bits => c.isPoint bits.bytes).getD false

/-- What names or describes the curve of an elliptic curve key: a part of the key, or
what stands beside it. A public point has to be on the curve. -/
def curve? (beside : Option Element) (e : Element) : Option Element :=
  match e.sequence? with
  | some (version :: number :: rest) =>
    let (parameters, rest) := optional (Tag.context 0) rest
    let (point, rest) := optional (Tag.context 1) rest
    let curve := match parameters with
      | none => beside
      | some p => p.wrapped? 0
    if version.small?.isSome ∧ number.octetString?.isSome ∧ rest = [] then
      curve.filter fun d =>
        ((Curve.ofElement? d).map fun c => absentOr (isPointOf c) point).getD false
    else none
  | _ => none

/-- Whether a search sees the keys on a curve. -/
def Reach.sees (reach : Reach) (curve : Element) : Bool :=
  reach == .full || curve.oid? != some Curve.sm2Oid

/-! ## Numbers modulo a prime -/

/-- The digits of numbers that stand in a row. -/
def magnitudes? (es : List Element) : Option (List Nat) :=
  es.mapM fun e => e.magnitude?.map BigEndian.number

/-- A DSA key with all its parts: a version and five numbers. -/
def isDsa (e : Element) : Bool :=
  match e.sequence? with
  | some (version :: numbers) =>
    version.small?.isSome && numbers.length == 5 && (magnitudes? numbers).isSome
  | _ => false

/-- Parameters that a DSA key without a public part needs: three numbers, the first
of which is odd. -/
def areDsaParameters (e : Element) : Bool :=
  match e.sequence?.bind magnitudes? with
  | some [p, _, _] => p % 2 == 1
  | _ => false

/-- A modulus that can be used for an agreement on a key. -/
def isModulus (p : Nat) : Bool :=
  p % 2 == 1 && 512 ≤ Curve.bitLength p && Curve.bitLength p ≤ 10000

/-- Parameters for an agreement: a modulus, a generator, perhaps a length. -/
def areDhParameters (e : Element) : Bool :=
  match e.sequence? with
  | some (p :: g :: length) =>
    let isLength : Bool := match length with
      | [] => true
      | [n] => n.small?.isSome
      | _ => false
    match magnitudes? [p, g] with
    | some (p :: _) => isModulus p && isLength
    | _ => false
  | _ => false

/-- How parameters were made: a seed and a counter. -/
def isValidation (e : Element) : Bool :=
  match e.sequence? with
  | some [seed, counter] => seed.bitString?.isSome && counter.magnitude?.isSome
  | _ => false

/-- Parameters by X9.42: a modulus, a generator, the order of a subgroup, perhaps a
cofactor, perhaps how they were made. -/
def areX942Parameters (e : Element) : Bool :=
  match e.sequence? with
  | some (p :: g :: q :: rest) =>
    let (cofactor, rest) := optional Tag.integer rest
    let (validation, rest) := optional Tag.sequence rest
    match magnitudes? ([p, g, q] ++ cofactor.toList) with
    | some (p :: _) => isModulus p && absentOr isValidation validation && rest.isEmpty
    | _ => false
  | _ => false

/-- An integer that is not negative. -/
def isNatural (e : Element) : Bool :=
  (e.integer?.map fun n => decide (0 ≤ signedValue n)).getD false

/-! ## Reading a key -/

/-- A string of exactly `n` bytes. -/
def isRawSecret (n : Nat) (e : Element) : Bool :=
  (e.octetString?.map fun s => s.length == n).getD false

/-- The algorithm's own encoding, where its parameters stand outside. -/
def secret? (reach : Reach) : Algorithm → Option Element → Element → Option Bytes
  | .rsa, _, e => rsa? e
  | .rsaPss, ps, e => if absentOr Pss.areParameters ps then rsa? e else none
  | .ec, some ps, e =>
    if (Curve.ofElement? ps).isSome ∧ reach.sees ps then
      ((curve? (some ps) e).filter reach.sees).map fun _ => e.raw
    else none
  | .dsa, some ps, e => if areDsaParameters ps ∧ isNatural e then some e.raw else none
  | .dh, some ps, e => if areDhParameters ps ∧ e.isInteger then some e.raw else none
  | .x942Dh, some ps, e => if areX942Parameters ps ∧ e.isInteger then some e.raw else none
  | .x25519, none, e => if isRawSecret 32 e then some e.raw else none
  | .x448, none, e => if isRawSecret 56 e then some e.raw else none
  | .ed25519, none, e => if isRawSecret 32 e then some e.raw else none
  | .ed448, none, e => if isRawSecret 57 e then some e.raw else none
  | _, _, _ => none

/-- An attribute: its kind and a set of values. -/
def isAttribute (e : Element) : Bool :=
  match e.sequence? with
  | some [kind, values] =>
    kind.oid?.isSome && ((values.row? Tag.set).map (·.all (·.value?.isSome))).getD false
  | _ => false

/-- A set of attributes. -/
def areAttributes (e : Element) : Bool :=
  ((e.row? (Tag.context 0)).map (·.all isAttribute)).getD false

/-- A key wrapped with the name of its algorithm. -/
def ofWrapped? (reach : Reach) (e : Element) : Option Key :=
  match e.sequence? with
  | some (version :: algorithm :: wrapped :: rest) => do
    let (attributes, rest) := optional (Tag.context 0) rest
    let identifier ← AlgorithmIdentifier.ofElement? algorithm
    let (inner, _) ← Der.read? .basic (← wrapped.octetString?)
    let algorithm ← Algorithm.ofOid? reach identifier.oid
    let secret ← secret? reach algorithm identifier.parameters inner
    if version.isInteger ∧ absentOr areAttributes attributes ∧ rest = [] then
      some ⟨algorithm, some secret⟩
    else none
  | _ => none

/-- A key in the own encoding of one of the algorithms that have one. -/
def ofBare? (reach : Reach) (a : Algorithm) (e : Element) : Option Key :=
  match a with
  | .rsa => (rsa? e).map fun s => ⟨.rsa, some s⟩
  | .dsa => if isDsa e then some ⟨.dsa, some e.raw⟩ else none
  | .ec => ((curve? none e).filter reach.sees).map fun _ => ⟨.ec, some e.raw⟩
  | _ => none

/-- A key whose form is told from the number of its parts: three make a wrapped key,
and four an elliptic curve key. -/
def ofCount? (e : Element) : Option Key :=
  match (e.row? Tag.sequence).filter (·.all (·.value?.isSome)) with
  | some [_, _, _] => ofWrapped? .full e
  | some [_, _, _, _] =>
    (ofBare? .full .ec e).or ((ofWrapped? .full e).filter (·.algorithm = .ec))
  | _ => none

/-- A key in either form. -/
def ofElement? (e : Element) : Option Key :=
  [ofWrapped? .usual e, ofBare? .usual .rsa e, ofBare? .usual .dsa e, ofBare? .usual .ec e,
    ofCount? e].findSome? id

/-- The private key that `s` begins with. -/
def front? (s : Bytes) : Option Key := (Der.read? .basic s).bind fun p => ofElement? p.1

/-- The public key that `s` begins with: a key without its private part. -/
def publicFront? (s : Bytes) : Option Key := do
  let (e, _) ← Der.read? .basic s
  match ← e.sequence? with
  | [algorithm, bits] =>
    let identifier ← AlgorithmIdentifier.ofElement? algorithm
    let a ← Algorithm.ofOid? .usual identifier.oid
    if bits.bitString?.isSome then some ⟨a, none⟩ else none
  | _ => none

end Key

end Keystore

/-! ## Storing a key -/

namespace Keystore.Key

open Der

/-- The kinds of keys that can be stored. -/
inductive Storable where
  | rsa
deriving DecidableEq, Repr

namespace Storable

/-- The kind with a given number: there is only one. -/
def ofNumber (_ : Int) : Storable := .rsa

/-- The short name of a kind. -/
def name : Storable → String
  | rsa => "RSA"

/-- The number under which registries list the kind's object identifier. -/
def identifierNumber : Storable → Nat
  | rsa => 6

/-- The tag of the parameters that stand beside the identifier. -/
def parameterTag : Storable → Tag
  | rsa => Tag.null

/-- The object identifier of a kind. -/
def oid : Storable → Bytes
  | rsa => Algorithm.oid .rsa

end Storable

/-- The kind of a key that can be stored. -/
def storable? (k : Key) : Option Storable :=
  match k.algorithm with
  | .rsa => some .rsa
  | _ => none

/-- A private key of a storable kind, given in its own encoding, in the frame that
is protected. -/
def privateInfo (kind : Storable) (secret : Bytes) : Bytes :=
  sequence [smallInteger 0, sequence [Der.oid kind.oid, primitive kind.parameterTag []],
    octetString secret]

/-- The frame of a key, which needs its private part. -/
def frame (kind : Storable) (k : Key) : Except Fault Bytes :=
  match k.secret with
  | some secret => .ok (privateInfo kind secret)
  | none => .error .noPrivatePart

/-- The object identifier of the password-based key protector. -/
def protectorOid : Bytes := oidContent 1 3 [6, 1, 4, 1, 42, 2, 17, 1, 1]

/-- A protected key in the frame that a key store holds. -/
def protectedInfo (blob : Bytes) : Bytes :=
  sequence [sequence [Der.oid protectorOid, null], octetString blob]

end Keystore.Key
