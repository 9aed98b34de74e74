import Keystore.Der.Value
import Keystore.Text

/-!
# Recognising a certificate

A key store holds X.509 certificates as they are, so hardly anything is taken out
of one here. But a file given as a certificate must be one: `Certificate.read?`
checks the whole outline of the structure, from the outer sequence down to names
and extensions.

The signed part of a certificate is never written anew, since that could break
the signature. What stands around it can be: `Certificate.encode` gives the
distinguished form.

Notes on the model:
- Only what decides whether bytes are taken for a certificate is checked. Whether a signature
  is right, or a date has passed, is not: nothing here depends on it.
-/

namespace Keystore

/-- A certificate. -/
structure Certificate where
  /-- The bytes that it was read from. -/
  raw : Bytes
  /-- The signed part, exactly as it is signed. -/
  signed : Bytes
  /-- The algorithm of the signature. -/
  algorithm : AlgorithmIdentifier
  signature : Der.BitString
deriving DecidableEq

namespace Certificate

open Der

/-- An algorithm. -/
def isAlgorithm (e : Element) : Bool := (AlgorithmIdentifier.ofElement? e).isSome

/-! ## Names -/

/-- The types of the texts in names. -/
def nameTypes : List Tag :=
  [Tag.utf8String, Tag.numericString, Tag.printableString, Tag.teletexString, Tag.ia5String,
    Tag.universalString, Tag.bmpString, Tag.bitString, Tag.sequence]

/-- The numbers of the universal types that have no part in names, but are not
kept out of them either. -/
def openTypes : List Nat := [7, 8, 9, 11, 13, 14, 15, 29]

/-- A text in a name is made of characters, whatever encoding its type says. -/
def isText (tag : Tag) (content : Bytes) : Bool :=
  if tag = Tag.utf8String then Utf8.isWellFormed content
  else if tag = Tag.bmpString then (Utf16.units content).all fun n => n.isValidChar
  else if tag = Tag.universalString then (BigEndian.words content).all fun n => n.toNat.isValidChar
  else true

/-- A text in a name. -/
def isNameText (e : Element) : Bool :=
  e.tag.space = .universal
    && (nameTypes.contains e.tag || openTypes.contains e.tag.number)
    && e.value?.isSome
    && ((e.octets?.map (isText e.tag)).getD true)

/-- An attribute of a name: its kind and its text. -/
def isAttribute (e : Element) : Bool :=
  match e.sequence? with
  | some [kind, text] => kind.oid?.isSome && isNameText text
  | _ => false

/-- A set of attributes. -/
def isRelativeName (e : Element) : Bool :=
  match e.row? Tag.set with
  | some attributes => attributes.all isAttribute
  | none => false

/-- The most bytes in a distinguished name. -/
abbrev nameLimit : Nat := 0x100000

/-- A distinguished name: a row of relative names. -/
def isName (e : Element) : Bool :=
  e.raw.length ≤ nameLimit && match e.row? Tag.sequence with
    | some names => names.all isRelativeName
    | none => false

/-! ## The signed part -/

/-- A time in one of the two forms that certificates use. -/
def isTime (e : Element) : Bool :=
  (e.tag == Tag.utcTime || e.tag == Tag.generalizedTime) && e.octets?.isSome

/-- The times between which a certificate is valid. -/
def isValidity (e : Element) : Bool :=
  match e.sequence? with
  | some [start, stop] => isTime start && isTime stop
  | _ => false

/-- A public key: its algorithm and its bits. -/
def isPublicKey (e : Element) : Bool :=
  match e.sequence? with
  | some [algorithm, bits] => isAlgorithm algorithm && bits.bitString?.isSome
  | _ => false

/-- A truth value. -/
def isBoolean (e : Element) : Bool := e.tag == Tag.boolean && e.value?.isSome

/-- An extension: its kind, whether it is critical unless it is not, its value. -/
def isExtension (e : Element) : Bool :=
  match e.sequence? with
  | some (kind :: rest) =>
    let (critical, rest) := optional Tag.boolean rest
    kind.oid?.isSome && absentOr isBoolean critical && match rest with
      | [content] => content.octetString?.isSome
      | _ => false
  | _ => false

/-- The explicitly tagged version number. -/
def isVersion (e : Element) : Bool := ((e.wrapped? 0).map Element.isInteger).getD false

/-- The explicitly tagged row of extensions. -/
def isExtensions (e : Element) : Bool :=
  match (e.wrapped? 3).bind (·.row? Tag.sequence) with
  | some extensions => extensions.all isExtension
  | none => false

/-- A unique identifier, the tag of which is `n`. -/
def isUniqueId (n : Nat) (e : Element) : Bool := (e.bitsUnder? (Tag.context n)).isSome

/-- What may follow the public key: two unique identifiers and the extensions,
each at most once and in this order. -/
def isTail (es : List Element) : Bool :=
  let (issuerId, es) := optional (Tag.context 1) es
  let (subjectId, es) := optional (Tag.context 2) es
  let (extensions, es) := optional (Tag.context 3) es
  absentOr (isUniqueId 1) issuerId && absentOr (isUniqueId 2) subjectId
    && absentOr isExtensions extensions && es.isEmpty

/-- The signed part. -/
def isSigned (e : Element) : Bool :=
  match e.sequence? with
  | some es =>
    let (version, es) := optional (Tag.context 0) es
    absentOr isVersion version && match es with
      | serial :: algorithm :: issuer :: validity :: subject :: key :: tail =>
        serial.isInteger && isAlgorithm algorithm && isName issuer && isValidity validity
          && isName subject && isPublicKey key && isTail tail
      | _ => false
  | none => false

/-! ## Certificates -/

/-- The certificate that an element is: the signed part, the algorithm of the
signature, the signature. -/
def ofElement? (e : Element) : Option Certificate :=
  match e.sequence? with
  | some [signed, algorithm, signature] =>
    match AlgorithmIdentifier.ofElement? algorithm, signature.bitString? with
    | some algorithm, some signature =>
      if isSigned signed then some ⟨e.raw, signed.raw, algorithm, signature⟩ else none
    | _, _ => none
  | _ => none

/-- The certificate that `s` begins with. -/
def read? (s : Bytes) : Option Certificate := (Der.read? .basic s).bind fun p => ofElement? p.1

/-- A certificate in distinguished form. -/
def encode (c : Certificate) : Bytes :=
  sequence [c.signed, c.algorithm.encode, primitive Tag.bitString c.signature.content]

end Certificate

end Keystore
