import Keystore.Proofs.Certificate
import Keystore.Proofs.KeyFrame

/-!
# The form of the frames of a stored key

Both frames are elements inside each other, and each of them has a length of its own. What a
length can look like is said here without the function that writes it (`Der.IsLength`), and so is
that there is no shorter one (`Der.IsShortest`). A frame is made of elements with the shortest
lengths (`Key.IsFrame`), whatever the payload takes, since the length that is written is the
shortest at every size (`Der.isShortest_lengthField`).

The strict readers give the payload of a frame back, and they accept nothing else: what they
accept is the frame of what they give (`Key.eq_of_protectedContent?`, `Key.eq_of_privateContent?`).
So the frames are canonical and lossless (`Key.isStrict_frames`).
-/

namespace Keystore

namespace Der

open BigEndian (number)

/-! ## Lengths -/

/-- The ways to write a length: below 128 as one byte, and always as the count of some digits
and the digits. -/
inductive IsLength : Bytes → Nat → Prop
  | short {n : UInt8} (h : n < 0x80) : IsLength [n] n.toNat
  | long {count : UInt8} {field : Bytes} (hcount : count.toNat = 0x80 + field.length)
    (hsome : field ≠ []) : IsLength (count :: field) (number field)

/-- A length that cannot be written in fewer bytes. -/
def IsShortest (field : Bytes) (n : Nat) : Prop :=
  IsLength field n ∧ ∀ other, IsLength other n → field.length ≤ other.length

/-- An element with a given first byte, the shortest length, and the content. -/
def IsElement (first : UInt8) (content s : Bytes) : Prop :=
  ∃ field, IsShortest field content.length ∧ s = first :: (field ++ content)

variable {n : Nat}

theorem isLength_lengthField (h : n < lengthBound) : IsLength (lengthField n) n := by
  unfold lengthField
  by_cases hshort : n < 0x80
  · rw [if_pos hshort]
    have hbyte : (UInt8.ofNat n).toNat = n :=
      UInt8.toNat_ofNat_of_lt' (Nat.lt_trans hshort (by decide))
    have hlength := IsLength.short (n := UInt8.ofNat n) (by
      rw [UInt8.lt_iff_toNat_lt, hbyte]
      exact hshort)
    rwa [hbyte] at hlength
  · rw [if_neg hshort]
    have hcount : (digits n).length ≤ 8 := length_digits_le h
    have hbyte : (UInt8.ofNat (0x80 + (digits n).length)).toNat = 0x80 + (digits n).length :=
      UInt8.toNat_ofNat_of_lt' (by simp only [UInt8.size]; omega)
    have hlength := IsLength.long hbyte (digits_ne_nil n)
    rwa [number_digits] at hlength

/-- Other ways to write a length take at least as many bytes. -/
theorem IsLength.length_lengthField_le {other : Bytes} (h : IsLength other n) :
    (lengthField n).length ≤ other.length := by
  unfold lengthField
  cases h with
  | @short n hshort =>
    have hlow : n.toNat < 0x80 := UInt8.lt_iff_toNat_lt.mp hshort
    rw [if_pos hlow]
    exact Nat.le_refl 1
  | @long count field hcount hsome =>
    by_cases hlow : number field < 0x80
    · rw [if_pos hlow, List.length_singleton, List.length_cons]
      exact Nat.le_add_left 1 field.length
    · rw [if_neg hlow, List.length_cons, List.length_cons]
      obtain ⟨k, hk⟩ := Nat.exists_eq_succ_of_ne_zero (mt List.length_eq_zero_iff.mp hsome)
      have hlt : number field < 256 ^ (k + 1) := by
        rw [← Nat.succ_eq_add_one, ← hk]
        exact BigEndian.number_lt field
      rw [hk]
      exact Nat.succ_le_succ (length_digits_le hlt)

/-- The length that is written is the shortest, whatever its size. -/
theorem isShortest_lengthField (h : n < lengthBound) : IsShortest (lengthField n) n :=
  ⟨isLength_lengthField h, fun _ hother => hother.length_lengthField_le⟩

example : [0x7F, 0x80, 0xFF, 0x100, 0xFFFF, 0x10000].map lengthField
    = [[0x7F], [0x81, 0x80], [0x81, 0xFF], [0x82, 1, 0], [0x82, 0xFF, 0xFF], [0x83, 1, 0, 0]] := by
  decide +kernel

theorem isElement_framed {t : Tag} {c : Bool} {first : UInt8} {content : Bytes}
    (hfirst : t.bytes c = [first]) (h : content.length < lengthBound) :
    IsElement first content (framed t c content) := by
  refine ⟨lengthField content.length, isShortest_lengthField h, ?_⟩
  rw [framed, hfirst, List.append_assoc]
  rfl

theorem isElement_sequence {parts : List Bytes} {content : Bytes} (hparts : parts.flatten = content)
    (h : content.length < lengthBound) : IsElement 0x30 content (sequence parts) := by
  subst hparts
  exact isElement_framed (t := Tag.sequence) (c := true) rfl h

end Der

namespace Key

open Der

/-! ## Frames -/

/-- A frame: a sequence of what stands in `front`, a named algorithm with null beside the name,
and the payload as a string of bytes. -/
inductive IsFrame (front name payload : Bytes) : Bytes → Prop
  | intro {identifier absent algorithm secret s : Bytes}
    (hidentifier : IsElement 0x06 name identifier) (habsent : IsElement 0x05 [] absent)
    (halgorithm : IsElement 0x30 (identifier ++ absent) algorithm)
    (hsecret : IsElement 0x04 payload secret)
    (hs : IsElement 0x30 (front ++ algorithm ++ secret) s) : IsFrame front name payload s

/-- The size that no text in memory reaches. -/
abbrev sizeBound : Nat := 2 ^ 63

/-- A frame for which a strict reader is the inverse. -/
structure IsStrict (frame : Bytes → Bytes) (content? : Bytes → Option Bytes)
    (front name : Bytes) : Prop where
  form : ∀ {payload}, payload.length < sizeBound → IsFrame front name payload (frame payload)
  read : ∀ {payload}, payload.length < sizeBound → content? (frame payload) = some payload
  only : ∀ {s payload}, content? s = some payload → s = frame payload
  injective : ∀ {a b}, a.length < sizeBound → b.length < sizeBound → frame a = frame b → a = b

variable {front name payload s : Bytes} {parts : List Bytes} {e : Element}

/-- What is read back is not lost. -/
theorem IsStrict.of_read {frame : Bytes → Bytes} {content? : Bytes → Option Bytes}
    (form : ∀ {payload}, payload.length < sizeBound → IsFrame front name payload (frame payload))
    (read : ∀ {payload}, payload.length < sizeBound → content? (frame payload) = some payload)
    (only : ∀ {s payload}, content? s = some payload → s = frame payload) :
    IsStrict frame content? front name := by
  refine ⟨form, read, only, ?_⟩
  intro a b ha hb heq
  have hread := read ha
  rw [heq, read hb] at hread
  exact (Option.some.inj hread).symm

/-- An element takes at most ten bytes more than its content. -/
theorem length_le_of_isElement {first : UInt8} {content : Bytes} (h : IsElement first content s)
    (hlength : content.length < lengthBound) : s.length ≤ content.length + 10 := by
  obtain ⟨field, ⟨-, hshortest⟩, rfl⟩ := h
  have hfield := hshortest _ (isLength_lengthField hlength)
  have hnine := length_lengthField_le hlength
  rw [List.length_cons, List.length_append]
  omega

/-- A written sequence of the right parts is a frame, and short enough to be read. -/
theorem isFrame_sequence
    (hparts : parts.flatten
      = front ++ Der.sequence [Der.oid name, null] ++ octetString payload)
    (hfront : front.length ≤ 64) (hname : name.length ≤ 64)
    (hpayload : payload.length < sizeBound) :
    IsFrame front name payload (Der.sequence parts)
      ∧ (Der.sequence parts).length < lengthBound := by
  have hbounds : sizeBound + 300 < lengthBound := by decide
  -- from the inside out: the size of each element bounds the content of the next one
  have hidentifier : IsElement 0x06 name (Der.oid name) :=
    isElement_framed (t := Tag.oid) (c := false) rfl (by omega)
  have hidentifierLength := length_le_of_isElement hidentifier (by omega)
  have habsent : IsElement 0x05 [] null :=
    isElement_framed (t := Tag.null) (c := false) rfl (by decide)
  have hrow : (Der.oid name ++ null).length ≤ name.length + 12 := by
    rw [List.length_append, show null.length = 2 from rfl]
    omega
  have halgorithm : IsElement 0x30 (Der.oid name ++ null) (Der.sequence [Der.oid name, null]) :=
    isElement_sequence (by simp) (by omega)
  have halgorithmLength := length_le_of_isElement halgorithm (by omega)
  have hsecret : IsElement 0x04 payload (octetString payload) :=
    isElement_framed (t := Tag.octetString) (c := false) rfl (by omega)
  have hsecretLength := length_le_of_isElement hsecret (by omega)
  have hcontent : (front ++ Der.sequence [Der.oid name, null] ++ octetString payload).length
      < lengthBound - 10 := by
    rw [List.length_append, List.length_append]
    omega
  have hs := isElement_sequence hparts (by omega)
  have hsLength := length_le_of_isElement hs (by omega)
  exact ⟨.intro hidentifier habsent halgorithm hsecret hs, by omega⟩

/-! ## What the strict readers accept -/

/-- A sequence that was taken apart is written anew from its parts. -/
theorem eq_of_parts? {es : List Element} (h : parts? s = some es) :
    s = Der.sequence (es.map Element.raw)
      ∧ ∀ e ∈ es, e.tag.number < longTag → e.raw = framed e.tag e.constructed e.content := by
  obtain ⟨e, hone, hparts⟩ := Option.bind_eq_some_iff.mp h
  have hsequence : e.parts? = some es := hparts
  obtain ⟨hframed, hraw⟩ := Element.framed_of_parts? hsequence
  refine ⟨?_, hraw⟩
  rw [eq_of_readOne? hone (by rw [Element.tag_of_parts? hsequence]; decide), hframed]

/-- A value is written anew from its content. -/
theorem framed_of_isValue {tag : Tag} {content : Bytes} (h : isValue tag content e = true) :
    e.tag = tag ∧ framed e.tag e.constructed e.content = primitive tag content := by
  unfold isValue at h
  rw [Bool.and_eq_true, Bool.and_eq_true, beq_iff_eq, beq_iff_eq, Bool.not_eq_true'] at h
  obtain ⟨⟨htag, hprimitive⟩, hcontent⟩ := h
  refine ⟨htag, ?_⟩
  rw [htag, hprimitive, hcontent]
  rfl

theorem framed_of_plainOctets? (h : plainOctets? e = some payload) :
    e.tag = Tag.octetString ∧ framed e.tag e.constructed e.content = octetString payload := by
  unfold plainOctets? at h
  split at h
  next hoctets =>
    obtain rfl := Option.some.inj h
    obtain ⟨htag, hplain⟩ := hoctets
    rw [Bool.not_eq_true'] at hplain
    refine ⟨htag, ?_⟩
    rw [htag, hplain]
    rfl
  next => exact nomatch h

theorem raw_of_isNamed (h : isNamed name e = true) :
    e.raw = Der.sequence [Der.oid name, null] := by
  unfold isNamed at h
  split at h
  next algorithm parameters hparts =>
    obtain ⟨hraw, hrow⟩ := eq_of_parts? hparts
    rw [Bool.and_eq_true] at h
    obtain ⟨hatag, halgorithm⟩ := framed_of_isValue h.1
    obtain ⟨hptag, hparameters⟩ := framed_of_isValue h.2
    have harow := hrow algorithm List.mem_cons_self (by rw [hatag]; decide)
    have hprow := hrow parameters (.tail _ List.mem_cons_self) (by rw [hptag]; decide)
    rw [hraw, List.map_cons, List.map_singleton, harow, hprow, halgorithm, hparameters]
    rfl
  next => exact nomatch h

/-- What is accepted as the frame of a protected key is that frame. -/
theorem eq_of_protectedContent? (h : protectedContent? s = some payload) :
    s = protectedInfo payload := by
  unfold protectedContent? at h
  split at h
  next algorithm data hparts =>
    split at h
    next hnamed =>
      obtain ⟨hs, hrow⟩ := eq_of_parts? hparts
      obtain ⟨htag, hdata⟩ := framed_of_plainOctets? h
      have hdrow := hrow data (.tail _ List.mem_cons_self) (by rw [htag]; decide)
      rw [hs, List.map_cons, List.map_singleton, raw_of_isNamed hnamed, hdrow, hdata]
      rfl
    next => exact nomatch h
  next => exact nomatch h

/-- What is accepted as the frame of an RSA key is that frame. -/
theorem eq_of_privateContent? (h : privateContent? s = some payload) :
    s = privateInfo .rsa payload := by
  unfold privateContent? at h
  split at h
  next version algorithm secret hparts =>
    split at h
    next hfront =>
      obtain ⟨hversion, hnamed⟩ := hfront
      obtain ⟨hs, hrow⟩ := eq_of_parts? hparts
      obtain ⟨hvtag, hvalue⟩ := framed_of_isValue hversion
      obtain ⟨htag, hsecret⟩ := framed_of_plainOctets? h
      have hvrow := hrow version List.mem_cons_self (by rw [hvtag]; decide)
      have hsrow := hrow secret (.tail _ (.tail _ List.mem_cons_self)) (by rw [htag]; decide)
      rw [hs, List.map_cons, List.map_cons, List.map_singleton, raw_of_isNamed hnamed, hvrow, hvalue,
        hsrow, hsecret]
      rfl
    next => exact nomatch h
  next => exact nomatch h

/-! ## Both frames -/

theorem isFrame_protectedInfo (h : payload.length < sizeBound) :
    IsFrame [] protectorOid payload (protectedInfo payload)
      ∧ (protectedInfo payload).length < lengthBound :=
  isFrame_sequence (by simp) (by decide) (by rw [length_protectorOid]; decide) h

theorem isFrame_privateInfo (h : payload.length < sizeBound) :
    IsFrame [2, 1, 0] (Algorithm.oid .rsa) payload (privateInfo .rsa payload)
      ∧ (privateInfo .rsa payload).length < lengthBound := by
  have hversion : smallInteger 0 = [2, 1, 0] := rfl
  have hparts : ([smallInteger 0, Der.sequence [Der.oid (Algorithm.oid .rsa), null],
      octetString payload] : List Bytes).flatten
        = [2, 1, 0] ++ Der.sequence [Der.oid (Algorithm.oid .rsa), null] ++ octetString payload := by
    rw [hversion]
    simp
  exact isFrame_sequence hparts (by decide) (by rw [length_rsaOid]; decide) h

/-- Both frames of a stored key are canonical and lossless: every element has the shortest
length, the strict reader gives the payload back and accepts nothing else. An RSA key with a
private part has such a frame. -/
theorem isStrict_frames :
    IsStrict protectedInfo protectedContent? [] [0x2B, 6, 1, 4, 1, 0x2A, 2, 0x11, 1, 1]
    ∧ IsStrict (privateInfo .rsa) privateContent? [2, 1, 0]
        [0x2A, 0x86, 0x48, 0x86, 0xF7, 0x0D, 1, 1, 1]
    ∧ ∀ (k : Key) (secret : Bytes), k.algorithm = .rsa → k.secret = some secret →
        ∃ kind, k.storable? = some kind ∧ frame kind k = .ok (privateInfo .rsa secret) := by
  have hprotector : protectorOid = [0x2B, 6, 1, 4, 1, 0x2A, 2, 0x11, 1, 1] := by
    decide +kernel
  have hrsa : Algorithm.oid .rsa = [0x2A, 0x86, 0x48, 0x86, 0xF7, 0x0D, 1, 1, 1] := by
    decide +kernel
  rw [← hprotector, ← hrsa]
  refine ⟨?_, ?_, ?_⟩
  · exact .of_read (fun h => (isFrame_protectedInfo h).1)
      (fun h => protectedContent?_protectedInfo (isFrame_protectedInfo h).2) eq_of_protectedContent?
  · exact .of_read (fun h => (isFrame_privateInfo h).1)
      (fun h => privateContent?_privateInfo (isFrame_privateInfo h).2) eq_of_privateContent?
  · intro k secret halgorithm hsecret
    refine ⟨.rsa, ?_, ?_⟩
    · rw [storable?, halgorithm]
    · rw [frame, hsecret]

/-- A payload whose length is not the byte itself, and a key. -/
theorem isStrict_frames_sample :
    IsFrame [] [0x2B, 6, 1, 4, 1, 0x2A, 2, 0x11, 1, 1] (List.replicate 200 7)
        (protectedInfo (List.replicate 200 7))
      ∧ protectedContent? (protectedInfo (List.replicate 200 7)) = some (List.replicate 200 7)
      ∧ privateContent? (privateInfo .rsa [0x30, 0]) = some [0x30, 0]
      ∧ ∃ kind, storable? ⟨.rsa, some [0x30, 0]⟩ = some kind
        ∧ frame kind ⟨.rsa, some [0x30, 0]⟩ = .ok (privateInfo .rsa [0x30, 0]) := by
  obtain ⟨hprotected, hprivate, hkeys⟩ := isStrict_frames
  have hlength : (List.replicate 200 (7 : UInt8)).length < sizeBound := by
    rw [List.length_replicate]
    decide
  exact ⟨hprotected.form hlength, hprotected.read hlength, hprivate.read (by decide),
    hkeys _ _ rfl rfl⟩

end Key

end Keystore
