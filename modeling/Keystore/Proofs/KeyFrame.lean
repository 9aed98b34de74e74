import Keystore.Key
import Keystore.Proofs.Der

/-!
# The frames of a stored key, read strictly

A key is framed twice: in the clear as `privateInfo`, and under its protection as
`protectedInfo`. The readers here take a frame apart by the distinguished rules,
insist on every field of it, and give the payload. They know the layout only, not
the functions that write it.

Both frames are lossless: the reader of a frame gives back what was put into it
(`protectedContent?_protectedInfo`, `privateContent?_privateInfo`).
-/

namespace Keystore.Key

open Der

/-! ## Readers -/

/-- The parts of a sequence that fills all of `s`. -/
def parts? (s : Bytes) : Option (List Element) :=
  (readOne? .distinguished s).bind fun e =>
    if e.tag = Tag.sequence ∧ e.constructed then readAll? .distinguished e.content else none

/-- Whether an element is a value of the given type with the given content. -/
def isValue (tag : Tag) (content : Bytes) (e : Element) : Bool :=
  e.tag == tag && !e.constructed && e.content == content

/-- Whether an element names an algorithm, with null beside the name. -/
def isNamed (name : Bytes) (e : Element) : Bool :=
  match parts? e.raw with
  | some [algorithm, parameters] =>
    isValue Tag.oid name algorithm && isValue Tag.null [] parameters
  | _ => false

/-- The bytes in a plain string of bytes. -/
def plainOctets? (e : Element) : Option Bytes :=
  if e.tag = Tag.octetString ∧ !e.constructed then some e.content else none

/-- What the frame of a protected key holds: a name for the protection, and the
protected key. -/
def protectedContent? (s : Bytes) : Option Bytes :=
  match parts? s with
  | some [algorithm, data] => if isNamed protectorOid algorithm then plainOctets? data else none
  | _ => none

/-- What the frame of an RSA key holds: version zero, the algorithm, and the key. -/
def privateContent? (s : Bytes) : Option Bytes :=
  match parts? s with
  | some [version, algorithm, secret] =>
    if isValue Tag.integer [0] version ∧ isNamed (Algorithm.oid .rsa) algorithm then
      plainOctets? secret
    else none
  | _ => none

/-! ## What written elements are read as -/

/-- The element that a written value is read as. -/
def valueElement (tag : Tag) (content : Bytes) : Element :=
  ⟨tag, false, content, primitive tag content⟩

/-- The element that a written sequence is read as. -/
def sequenceElement (parts : List Bytes) : Element :=
  ⟨Tag.sequence, true, parts.flatten, Der.sequence parts⟩

/-- A row that begins with a written value. -/
theorem readAll?_primitive {tag : Tag} {content : Bytes} (rest : Bytes)
    (ht : tag.number < longTag) (hmark : tag.bytes false ≠ [0])
    (hlen : content.length < lengthBound) :
    readAll? .distinguished (primitive tag content ++ rest)
      = (readAll? .distinguished rest).map (valueElement tag content :: ·) :=
  readAll?_of_read? (read?_primitive .distinguished rest ht hmark hlen)

/-- A row that begins with a written sequence. -/
theorem readAll?_sequence {parts : List Bytes} (rest : Bytes)
    (hlen : parts.flatten.length < lengthBound) :
    readAll? .distinguished (Der.sequence parts ++ rest)
      = (readAll? .distinguished rest).map (sequenceElement parts :: ·) :=
  readAll?_of_read? (read?_constructed .distinguished rest (by decide) (by decide) hlen)

/-- A written sequence is taken apart into its row. -/
theorem parts?_sequence {parts : List Bytes} (hlen : parts.flatten.length < lengthBound) :
    parts? (Der.sequence parts) = readAll? .distinguished parts.flatten := by
  have hread : read? .distinguished (Der.sequence parts ++ []) = some (_, []) :=
    read?_constructed .distinguished [] (by decide) (by decide) hlen
  rw [List.append_nil, Der.sequence] at hread
  rw [parts?, Der.sequence, readOne?_of_read? hread]
  simp

theorem isValue_valueElement (tag : Tag) (content : Bytes) :
    isValue tag content (valueElement tag content) = true := by
  simp [isValue, valueElement]

theorem plainOctets?_valueElement (content : Bytes) :
    plainOctets? (valueElement Tag.octetString content) = some content := by
  simp [plainOctets?, valueElement]

/-! ## Sizes -/

theorem length_lengthField_le {n : Nat} (h : n < lengthBound) : (lengthField n).length ≤ 9 := by
  rw [lengthField]
  split
  next => simp
  next =>
    have := length_digits_le h
    rw [List.length_cons]
    omega

/-- An element takes at most ten bytes more than its content. -/
theorem length_framed_le {t : Tag} {c : Bool} {content : Bytes} (ht : t.number < longTag)
    (h : content.length < lengthBound) : (framed t c content).length ≤ content.length + 10 := by
  have := length_lengthField_le h
  rw [framed, List.length_append, List.length_append, Tag.bytes, if_pos ht,
    List.length_singleton]
  omega

/-- The length of a frame depends on that of its payload only. -/
theorem length_protectedInfo_congr {a b : Bytes} (h : a.length = b.length) :
    (protectedInfo a).length = (protectedInfo b).length := by
  simp only [protectedInfo, octetString, Der.sequence, primitive, constructed, List.flatten_cons,
    List.flatten_nil, List.length_append, List.length_nil, h]

theorem le_length_protectedInfo (blob : Bytes) : blob.length ≤ (protectedInfo blob).length := by
  simp only [protectedInfo, octetString, Der.sequence, primitive, constructed, List.flatten_cons,
    List.flatten_nil, List.length_append, List.length_nil]
  omega

theorem le_length_privateInfo (kind : Storable) (secret : Bytes) :
    secret.length ≤ (privateInfo kind secret).length := by
  simp only [privateInfo, octetString, Der.sequence, primitive, constructed, List.flatten_cons,
    List.flatten_nil, List.length_append, List.length_nil]
  omega

/-! ## Algorithm names -/

/-- A written name with null beside it, as it is taken apart. -/
theorem isNamed_sequence {name : Bytes} (h : name.length ≤ 64) :
    isNamed name (sequenceElement [Der.oid name, null]) = true := by
  have hname : (Der.oid name).length ≤ name.length + 10 :=
    length_framed_le (by decide) (Nat.lt_of_le_of_lt h (by decide))
  have hnull : null.length = 2 := rfl
  have hparts : ([Der.oid name, null] : List Bytes).flatten.length < lengthBound := by
    simp only [List.flatten_cons, List.flatten_nil, List.length_append, List.length_nil, hnull]
    exact Nat.lt_of_le_of_lt (m := 76) (by omega) (by decide)
  have hrow : readAll? .distinguished ([Der.oid name, null] : List Bytes).flatten
      = some [valueElement Tag.oid name, valueElement Tag.null []] := by
    rw [List.flatten_cons, Der.oid, readAll?_primitive _ (by decide) (by decide)
      (Nat.lt_of_le_of_lt h (by decide)), List.flatten_cons, null,
      readAll?_primitive _ (by decide) (by decide) (by decide), List.flatten_nil, readAll?_nil]
    rfl
  simp only [isNamed, sequenceElement, parts?_sequence hparts, hrow, isValue_valueElement,
    Bool.and_self]

/-! ## The frames are lossless -/

/-- The name of the protection is a short name. -/
theorem length_protectorOid : protectorOid.length = 10 := by
  decide +kernel

theorem length_rsaOid : (Algorithm.oid .rsa).length = 9 := by
  decide +kernel

/-- The content of a written sequence is shorter than the sequence. -/
theorem length_flatten_lt {parts : List Bytes} {n : Nat} (h : (Der.sequence parts).length < n) :
    parts.flatten.length < n := by
  simp only [Der.sequence, constructed, List.length_append] at h
  omega

/-- What was put into the frame of a protected key is read back. -/
theorem protectedContent?_protectedInfo {blob : Bytes}
    (h : (protectedInfo blob).length < lengthBound) :
    protectedContent? (protectedInfo blob) = some blob := by
  have hblob : blob.length < lengthBound := Nat.lt_of_le_of_lt (le_length_protectedInfo blob) h
  have hname : ([Der.oid protectorOid, null] : List Bytes).flatten.length < lengthBound := by
    decide +kernel
  -- the row is read from its front, one part after the other
  have hrow : readAll? .distinguished
        ([Der.sequence [Der.oid protectorOid, null], octetString blob] : List Bytes).flatten
      = some [sequenceElement [Der.oid protectorOid, null],
          valueElement Tag.octetString blob] := by
    rw [List.flatten_cons, readAll?_sequence _ hname, List.flatten_cons, octetString,
      readAll?_primitive _ (by decide) (by decide) hblob, List.flatten_nil, readAll?_nil]
    rfl
  rw [protectedContent?, protectedInfo, parts?_sequence (length_flatten_lt h), hrow]
  simp only [isNamed_sequence (Nat.le_trans (Nat.le_of_eq length_protectorOid) (by decide)),
    if_true, plainOctets?_valueElement]

/-- What was put into the frame of an RSA key is read back. -/
theorem privateContent?_privateInfo {secret : Bytes}
    (h : (privateInfo .rsa secret).length < lengthBound) :
    privateContent? (privateInfo .rsa secret) = some secret := by
  have hsecret : secret.length < lengthBound :=
    Nat.lt_of_le_of_lt (le_length_privateInfo .rsa secret) h
  have hname :
      ([Der.oid (Algorithm.oid .rsa), null] : List Bytes).flatten.length < lengthBound := by
    decide +kernel
  have hrow : readAll? .distinguished
        ([smallInteger 0, Der.sequence [Der.oid (Algorithm.oid .rsa), null],
          octetString secret] : List Bytes).flatten
      = some [valueElement Tag.integer [0], sequenceElement [Der.oid (Algorithm.oid .rsa), null],
          valueElement Tag.octetString secret] := by
    rw [List.flatten_cons, smallInteger, readAll?_primitive _ (by decide) (by decide) (by decide),
      List.flatten_cons, readAll?_sequence _ hname, List.flatten_cons, octetString,
      readAll?_primitive _ (by decide) (by decide) hsecret, List.flatten_nil, readAll?_nil]
    rfl
  have hframe : privateInfo .rsa secret = Der.sequence [smallInteger 0,
      Der.sequence [Der.oid (Algorithm.oid .rsa), null], octetString secret] := rfl
  rw [hframe] at h ⊢
  rw [privateContent?, parts?_sequence (length_flatten_lt h), hrow]
  simp only [isValue_valueElement,
    isNamed_sequence (Nat.le_trans (Nat.le_of_eq length_rsaOid) (by decide)), and_self, if_true,
    plainOctets?_valueElement]

end Keystore.Key
