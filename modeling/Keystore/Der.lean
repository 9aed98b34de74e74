import Keystore.Bytes

/-!
# Writing elements

Certificates and private keys travel as elements: a tag, a length, and the
content, which for a constructed element is itself a row of elements. This
module writes elements in the one form that is distinguished (DER): the tag and
the length take as few bytes as they need.
-/

namespace Keystore.Der

/-! ## Tags -/

/-- The spaces that tags are numbered in. -/
inductive Space where
  | universal
  | application
  | context
  | reserved
deriving DecidableEq, Repr

/-- What an element is marked with. -/
structure Tag where
  space : Space
  number : Nat
deriving DecidableEq, Repr

namespace Tag

abbrev boolean : Tag := ⟨.universal, 1⟩
abbrev integer : Tag := ⟨.universal, 2⟩
abbrev bitString : Tag := ⟨.universal, 3⟩
abbrev octetString : Tag := ⟨.universal, 4⟩
abbrev null : Tag := ⟨.universal, 5⟩
abbrev oid : Tag := ⟨.universal, 6⟩
abbrev enumerated : Tag := ⟨.universal, 10⟩
abbrev utf8String : Tag := ⟨.universal, 12⟩
abbrev sequence : Tag := ⟨.universal, 16⟩
abbrev set : Tag := ⟨.universal, 17⟩
abbrev numericString : Tag := ⟨.universal, 18⟩
abbrev printableString : Tag := ⟨.universal, 19⟩
abbrev teletexString : Tag := ⟨.universal, 20⟩
abbrev ia5String : Tag := ⟨.universal, 22⟩
abbrev utcTime : Tag := ⟨.universal, 23⟩
abbrev generalizedTime : Tag := ⟨.universal, 24⟩
abbrev universalString : Tag := ⟨.universal, 28⟩
abbrev bmpString : Tag := ⟨.universal, 30⟩

/-- The tag `n` whose meaning depends on where it stands. -/
abbrev context (n : Nat) : Tag := ⟨.context, n⟩

end Tag

/-! ## Numbers -/

/-- A number's digits to the base 256, the highest first and not zero; `BigEndian.number`
reads them back. -/
def digits (n : Nat) : Bytes :=
  if n < 256 then [UInt8.ofNat n] else digits (n / 256) ++ [UInt8.ofNat n]

/-- A number's digits to the base 128 in front of the last one, marked by the
high bit. -/
def highArcs (n : Nat) : Bytes :=
  if n = 0 then [] else highArcs (n / 128) ++ [UInt8.ofNat (0x80 + n % 128)]

/-- A number to the base 128, all digits but the last marked by the high bit. -/
def arc (n : Nat) : Bytes := highArcs (n / 128) ++ [UInt8.ofNat (n % 128)]

/-! ## Elements -/

/-- The two high bits that stand for a space. -/
def Space.bits : Space → Nat
  | universal => 0x00
  | application => 0x40
  | context => 0x80
  | reserved => 0xC0

/-- The number that says that the tag's number follows. -/
abbrev longTag : Nat := 31

/-- The bytes of a tag, with the bit that says whether the content is constructed. -/
def Tag.bytes (t : Tag) (constructed : Bool) : Bytes :=
  let mark := t.space.bits + if constructed then 0x20 else 0
  if t.number < longTag then [UInt8.ofNat (mark + t.number)]
  else UInt8.ofNat (mark + longTag) :: arc t.number

/-- A length: itself below 128, else the count of its digits and the digits. -/
def lengthField (n : Nat) : Bytes :=
  if n < 0x80 then [UInt8.ofNat n]
  else UInt8.ofNat (0x80 + (digits n).length) :: digits n

/-- An element whose content is a value. -/
def primitive (tag : Tag) (content : Bytes) : Bytes :=
  tag.bytes false ++ lengthField content.length ++ content

/-- An element whose content is a row of elements. -/
def constructed (tag : Tag) (parts : List Bytes) : Bytes :=
  let content := parts.flatten
  tag.bytes true ++ lengthField content.length ++ content

/-- An integer of one byte below 128. -/
def smallInteger (n : UInt8) : Bytes := primitive Tag.integer [n]

/-- Any bytes as an element. -/
def octetString (content : Bytes) : Bytes := primitive Tag.octetString content

/-- The element without content. -/
def null : Bytes := primitive Tag.null []

/-- A row of elements as one. -/
def sequence (parts : List Bytes) : Bytes := constructed Tag.sequence parts

/-- The content of an object identifier whose first two arcs are `first` and
`second`. -/
def oidContent (first second : Nat) (arcs : List Nat) : Bytes :=
  ((40 * first + second) :: arcs).flatMap arc

/-- An object identifier, from its content. -/
def oid (content : Bytes) : Bytes := primitive Tag.oid content

end Keystore.Der
