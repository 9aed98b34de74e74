import Keystore.Der.Element

/-!
# Values of elements

What an element stands for: an integer, a string of bits, an object identifier,
a row of other elements. The readers here follow the basic rules, so a string may
also come in pieces, as the content of a constructed element. `Element.value?`
brings the value of an element of any type into its distinguished form.

Signatures and keys say which algorithm they are for by an object identifier, beside
which parameters of any type may stand: an `AlgorithmIdentifier`.
-/

namespace Keystore.Der

/-! ## Rows -/

/-- The row of elements in an element with the given tag. -/
def Element.row? (tag : Tag) (e : Element) : Option (List Element) :=
  if e.tag = tag then readAll? .basic e.content else none

/-- The parts of a sequence. -/
def Element.sequence? (e : Element) : Option (List Element) :=
  if e.constructed then e.row? Tag.sequence else none

/-- The element that the tag `n` is wrapped around. -/
def Element.wrapped? (n : Nat) (e : Element) : Option Element :=
  if e.tag = Tag.context n ∧ e.constructed then readOne? .basic e.content else none

/-! ## Integers -/

/-- Whether an integer's content takes as few bytes as it needs. -/
def isMinimal : Bytes → Bool
  | [] => false
  | [_] => true
  | a :: b :: _ => !(a == 0 && b < 0x80) && !(a == 0xFF && 0x80 ≤ b)

/-- The number that an integer's content stands for, in two's complement. -/
def signedValue (content : Bytes) : Int :=
  if content.headD 0 < 0x80 then BigEndian.number content
  else -(BigEndian.number (content.map (~~~ ·)) : Int) - 1

/-- The content of an integer of any size. -/
def Element.integer? (e : Element) : Option Bytes :=
  if e.tag = Tag.integer ∧ !e.constructed ∧ isMinimal e.content then some e.content else none

/-- An integer of any size. -/
def Element.isInteger (e : Element) : Bool := e.integer?.isSome

/-- An integer of 32 bits. No content at all stands for zero. -/
def Element.small? (e : Element) : Option Int :=
  if e.tag = Tag.integer ∧ !e.constructed ∧ e.content.length ≤ 4
      ∧ (e.content = [] ∨ isMinimal e.content) then
    some (signedValue e.content)
  else none

/-- The digits of an integer that is meant to be positive: leading zeros are
dropped, and what looks like a sign is a digit. -/
def Element.magnitude? (e : Element) : Option Bytes :=
  if e.tag = Tag.integer ∧ !e.constructed then some (e.content.dropWhile (· == 0)) else none

/-- An integer with the given digits, the first of which is not zero. -/
def positive (magnitude : Bytes) : Bytes :=
  primitive Tag.integer (if magnitude.headD 0x80 < 0x80 then magnitude else 0 :: magnitude)

/-! ## Strings -/

/-- How deep the pieces of a string may be nested. -/
abbrev nestingLimit : Nat := 6

/-- Joins the pieces of a string, which may come in pieces themselves. -/
def joined? : Nat → Bytes → Option Bytes
  | 0, _ => none
  | depth + 1, s =>
    (readAll? .basic s).bind fun pieces =>
      (pieces.mapM fun (e : Element) =>
        if e.constructed then joined? depth e.content else some e.content).map List.flatten

/-- The bytes of a string. -/
def Element.octets? (e : Element) : Option Bytes :=
  if e.constructed then joined? nestingLimit e.content else some e.content

/-- The bytes of a string of bytes. -/
def Element.octetString? (e : Element) : Option Bytes :=
  if e.tag = Tag.octetString then e.octets? else none

/-- A string of bits: its bytes, and how many bits of the last one do not count. -/
structure BitString where
  unused : UInt8
  bytes : Bytes
deriving DecidableEq

/-- Reads the content of a bit string. Bits that do not count are taken to be zero. -/
def BitString.ofContent? : Bytes → Option BitString
  | [] => none
  | unused :: bytes =>
    if 7 < unused then none
    else match bytes.getLast? with
      | none => some ⟨0, []⟩
      | some last => some ⟨unused, bytes.dropLast ++ [last &&& (0xFF <<< unused)]⟩

/-- The content of a bit string. -/
def BitString.content (b : BitString) : Bytes := b.unused :: b.bytes

/-- A bit string in an element with the given tag. -/
def Element.bitsUnder? (tag : Tag) (e : Element) : Option BitString :=
  if e.tag = tag then e.octets?.bind BitString.ofContent? else none

/-- A bit string. -/
def Element.bitString? (e : Element) : Option BitString := e.bitsUnder? Tag.bitString

/-! ## Object identifiers -/

/-- Whether an object identifier's arcs are complete and without leading zeros. -/
def isArcs (content : Bytes) : Bool :=
  content.getLastD 0x80 < 0x80
    && ((0 :: content).zip content).all fun (before, b) => !(before < 0x80 && b == 0x80)

/-- The content of an object identifier. -/
def Element.oid? (e : Element) : Option Bytes :=
  if e.tag = Tag.oid ∧ !e.constructed ∧ isArcs e.content then some e.content else none

/-! ## Values of any type -/

/-- The types whose values never come in pieces. -/
def wholeTags : List Tag :=
  [Tag.boolean, Tag.integer, Tag.null, Tag.oid, Tag.enumerated]

/-- The distinguished form of a content of the given type. -/
def normal? (tag : Tag) (content : Bytes) : Option Bytes :=
  let keep (condition : Bool) : Option Bytes := if condition then some content else none
  if tag = Tag.boolean then keep (content.length == 1)
  else if tag = Tag.null then keep content.isEmpty
  else if tag = Tag.oid then keep (isArcs content)
  else if tag = Tag.integer ∨ tag = Tag.enumerated then keep (isMinimal content)
  else if tag = Tag.bitString then (BitString.ofContent? content).map BitString.content
  else if tag = Tag.bmpString then keep (content.length % 2 == 0)
  else if tag = Tag.universalString then keep (content.length % 4 == 0)
  else some content

/-- The value of an element of any type, written anew. Rows of elements, and
elements of types that are not universal, are passed on as they are. -/
def Element.value? (e : Element) : Option Bytes :=
  if e.tag.space ≠ .universal then some e.raw
  else if e.tag = Tag.sequence ∨ e.tag = Tag.set then if e.constructed then some e.raw else none
  else if e.constructed && wholeTags.contains e.tag then none
  else (e.octets?.bind (normal? e.tag)).map (primitive e.tag)

/-! ## Rows with optional elements -/

/-- Splits off the first element if it has the given tag. -/
def optional (tag : Tag) : List Element → Option Element × List Element
  | [] => (none, [])
  | e :: es => if e.tag = tag then (some e, es) else (none, e :: es)

/-- Whether an element, if there is one, satisfies `p`. -/
def absentOr (p : Element → Bool) (e : Option Element) : Bool := (e.map p).getD true

end Keystore.Der

namespace Keystore

/-- An algorithm by its object identifier. -/
structure AlgorithmIdentifier where
  /-- The content of the object identifier. -/
  oid : Bytes
  parameters : Option Der.Element
deriving DecidableEq

namespace AlgorithmIdentifier

open Der

/-- The algorithm identifier that an element is. -/
def ofElement? (e : Element) : Option AlgorithmIdentifier :=
  match e.sequence? with
  | some (name :: rest) =>
    match name.oid?, rest with
    | some name, [] => some ⟨name, none⟩
    | some name, [parameters] =>
      if parameters.value?.isSome then some ⟨name, some parameters⟩ else none
    | _, _ => none
  | _ => none

/-- An algorithm identifier in distinguished form. -/
def encode (a : AlgorithmIdentifier) : Bytes :=
  sequence (Der.oid a.oid :: (a.parameters.bind Element.value?).toList)

end AlgorithmIdentifier

end Keystore
