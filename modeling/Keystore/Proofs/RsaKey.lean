import Keystore.Proofs.KeyFrame
import Mathlib.Data.List.Forall2

/-!
# RSA keys in their canonical form

An RSA key is a row of numbers (`RsaKey`), and its canonical form is a sequence of them, each as
an integer in distinguished form. A key is read as far as it takes to write it anew, and one in
canonical form is written as it was (`Key.rsa?_encode`). Wrapped with the name of its algorithm,
with or without attributes, it is taken out of the wrapping as the same bytes
(`Key.IsWrapped.exists_stands`). So either form is the same key at the front of a file, whatever
follows it (`Key.front?_encode`, `Key.IsWrapped.front?_eq`).

All of it is read one element after the other (`Key.readAll?_of_stands`): a written element stands
for the element that it is read as, whatever follows it.
-/

namespace Keystore

open Der

namespace Key

variable {rules : Rules}

/-! ## Written elements by any rules -/

/-- Bytes that are taken off the front of whatever begins with them, as the given element. -/
def Stands (rules : Rules) (s : Bytes) (e : Element) : Prop :=
  ∀ rest, read? rules (s ++ rest) = some (e, rest)

theorem Stands.read?_eq {s : Bytes} {e : Element} (h : Stands rules s e) :
    read? rules s = some (e, []) := by
  have hread := h []
  rwa [List.append_nil] at hread

theorem stands_value {tag : Tag} {content : Bytes} (ht : tag.number < longTag)
    (hmark : tag.bytes false ≠ [0]) (hlength : content.length < lengthBound) :
    Stands rules (primitive tag content) (valueElement tag content) :=
  fun rest => read?_primitive rules rest ht hmark hlength

theorem stands_sequence {parts : List Bytes} (hlength : parts.flatten.length < lengthBound) :
    Stands rules (Der.sequence parts) (sequenceElement parts) :=
  fun rest => read?_constructed rules rest (by decide) (by decide) hlength

/-- A row of written elements is read as the row of what they stand for. -/
theorem readAll?_of_stands {parts : List Bytes} {es : List Element}
    (h : List.Forall₂ (Stands rules) parts es) : readAll? rules parts.flatten = some es := by
  induction h with
  | nil => exact readAll?_nil rules
  | @cons part e parts es hpart _ ih =>
    rw [List.flatten_cons, readAll?_of_read? (hpart parts.flatten), ih]
    rfl

theorem sequence?_of_stands {parts : List Bytes} {es : List Element}
    (h : List.Forall₂ (Stands .basic) parts es) : (sequenceElement parts).sequence? = some es := by
  show (if Tag.sequence = Tag.sequence then readAll? .basic parts.flatten else none) = _
  rw [if_pos rfl, readAll?_of_stands h]

/-! ## Sizes -/

theorem length_content_le (tag : Tag) (content : Bytes) :
    content.length ≤ (primitive tag content).length := by
  simp only [primitive, List.length_append]
  omega

theorem length_part_lt {part : Bytes} {parts : List Bytes} {n : Nat} (h : part ∈ parts)
    (hlength : (Der.sequence parts).length < n) : part.length < n :=
  Nat.lt_of_le_of_lt (List.sublist_flatten_of_mem h).length_le (length_flatten_lt hlength)

/-! ## Numbers -/

/-- The content of a natural number as an integer: its digits, behind a zero if the first one
would make it negative. -/
def naturalContent (n : Nat) : Bytes :=
  if (digits n).headD 0 < 0x80 then digits n else 0 :: digits n

/-- A natural number in distinguished form. -/
def natural (n : Nat) : Bytes := primitive Tag.integer (naturalContent n)

/-- What a natural number is read as. -/
def naturalElement (n : Nat) : Element := valueElement Tag.integer (naturalContent n)

/-- The digits that are left of it. -/
def magnitude (n : Nat) : Bytes := (naturalContent n).dropWhile (· == 0)

theorem stands_natural {n : Nat} (h : (natural n).length < lengthBound) :
    Stands rules (natural n) (naturalElement n) :=
  stands_value (by decide) (by decide) (Nat.lt_of_le_of_lt (length_content_le _ _) h)

theorem stands_naturals {ns : List Nat} (h : ∀ n ∈ ns, (natural n).length < lengthBound) :
    List.Forall₂ (Stands rules) (ns.map natural) (ns.map naturalElement) := by
  rw [List.forall₂_map_left_iff, List.forall₂_map_right_iff, List.forall₂_same]
  intro n hn
  exact stands_natural (h n hn)

theorem mapM_magnitude? (ns : List Nat) :
    (ns.map naturalElement).mapM Element.magnitude? = some (ns.map magnitude) := by
  have hone : Element.magnitude? ∘ naturalElement = fun n => pure (magnitude n) := rfl
  rw [List.mapM_map, hone, List.mapM_pure]
  rfl

/-- A number is written anew as it was. -/
theorem positive_magnitude (n : Nat) : positive (magnitude n) = natural n := by
  by_cases hzero : n = 0
  · have hdigits : digits 0 = [0] := by rw [digits, if_pos (by decide)]; rfl
    have hcontent : naturalContent n = [0] := by
      unfold naturalContent
      rw [hzero, hdigits]
      rfl
    unfold natural magnitude
    rw [hcontent]
    rfl
  · have hhead := head?_digits (Nat.pos_of_ne_zero hzero)
    obtain ⟨d, ds, hdigits⟩ := List.exists_cons_of_ne_nil (digits_ne_nil n)
    rw [hdigits] at hhead
    have hd : (d == 0) = false := beq_eq_false_iff_ne.mpr fun heq => hhead (congrArg some heq)
    by_cases hlow : d < 0x80
    · have hcontent : naturalContent n = d :: ds := by
        unfold naturalContent
        rw [hdigits]
        exact if_pos hlow
      unfold natural magnitude
      rw [hcontent, List.dropWhile_cons, hd]
      unfold positive
      exact congrArg _ (if_pos hlow)
    · have hcontent : naturalContent n = 0 :: d :: ds := by
        unfold naturalContent
        rw [hdigits]
        exact if_neg hlow
      unfold natural magnitude
      rw [hcontent, List.dropWhile_cons, List.dropWhile_cons, hd]
      unfold positive
      exact congrArg _ (if_neg hlow)

theorem map_positive_magnitude (ns : List Nat) :
    (ns.map magnitude).map positive = ns.map natural := by
  rw [List.map_map]
  exact List.map_congr_left fun n _ => positive_magnitude n

end Key

/-! ## Keys -/

/-- A further prime of an RSA key, with its exponent and its coefficient. -/
structure RsaPrime where
  prime : Nat
  exponent : Nat
  coefficient : Nat

/-- An RSA key of two primes, or of more. -/
structure RsaKey where
  modulus : Nat
  publicExponent : Nat
  privateExponent : Nat
  prime1 : Nat
  prime2 : Nat
  exponent1 : Nat
  exponent2 : Nat
  coefficient : Nat
  more : List RsaPrime

namespace RsaPrime

/-- The numbers in the order in which they are written. -/
def numbers (p : RsaPrime) : List Nat := [p.prime, p.exponent, p.coefficient]

/-- The canonical form. -/
def encode (p : RsaPrime) : Bytes := Der.sequence (p.numbers.map Key.natural)

end RsaPrime

namespace RsaKey

/-- The numbers in the order in which they are written. -/
def numbers (k : RsaKey) : List Nat :=
  [k.modulus, k.publicExponent, k.privateExponent, k.prime1, k.prime2, k.exponent1, k.exponent2,
    k.coefficient]

/-- The version: one if there are more than two primes. -/
def version (k : RsaKey) : UInt8 := if k.more = [] then 0 else 1

/-- What stands behind the numbers. -/
def tail (k : RsaKey) : List Bytes :=
  if k.more = [] then [] else [Der.sequence (k.more.map RsaPrime.encode)]

/-- The parts of the canonical form. -/
def parts (k : RsaKey) : List Bytes :=
  smallInteger k.version :: (k.numbers.map Key.natural ++ k.tail)

/-- The canonical form (PKCS#1). -/
def encode (k : RsaKey) : Bytes := Der.sequence k.parts

end RsaKey

namespace Key

/-! ## Reading a key -/

variable {rules : Rules}

/-- What a further prime is read as. -/
def primeElement (p : RsaPrime) : Element := sequenceElement (p.numbers.map natural)

theorem stands_prime {p : RsaPrime} (h : p.encode.length < lengthBound) :
    Stands rules p.encode (primeElement p) := stands_sequence (length_flatten_lt h)

theorem prime?_primeElement {p : RsaPrime} (h : p.encode.length < lengthBound) :
    prime? (primeElement p) = some p.encode := by
  have hparts : (primeElement p).sequence? = some (p.numbers.map naturalElement) :=
    sequence?_of_stands (stands_naturals fun n hn =>
      length_part_lt (List.mem_map_of_mem hn) h)
  have hrow := mapM_magnitude? p.numbers
  unfold prime?
  rw [hparts]
  show ((p.numbers.map naturalElement).mapM Element.magnitude?).map _ = _
  rw [hrow, Option.map_some, map_positive_magnitude]
  rfl

/-- What stands behind the numbers of a key is read as. -/
def tailElements (k : RsaKey) : List Element :=
  if k.more = [] then [] else [sequenceElement (k.more.map RsaPrime.encode)]

/-- What the parts of a key are read as. -/
def elements (k : RsaKey) : List Element :=
  valueElement Tag.integer [k.version] :: (k.numbers.map naturalElement ++ tailElements k)

theorem stands_tail {k : RsaKey} (h : k.encode.length < lengthBound) :
    List.Forall₂ (Stands rules) k.tail (tailElements k) := by
  have hpart : ∀ part ∈ k.tail, part.length < lengthBound := fun part hpart =>
    length_part_lt (List.mem_cons_of_mem _ (List.mem_append_right _ hpart)) h
  unfold RsaKey.tail tailElements at *
  split
  next => exact .nil
  next hmore =>
    rw [if_neg hmore] at hpart
    exact .cons (stands_sequence (length_flatten_lt (hpart _ List.mem_cons_self))) .nil

theorem stands_elements {k : RsaKey} (h : k.encode.length < lengthBound) :
    List.Forall₂ (Stands rules) k.parts (elements k) := by
  refine .cons (stands_value (by decide) (by decide) (by show 1 < lengthBound; decide)) ?_
  refine List.rel_append (stands_naturals ?_) (stands_tail h)
  intro n hn
  exact length_part_lt (List.mem_cons_of_mem _ (List.mem_append_left _ (List.mem_map_of_mem hn))) h

theorem mapM_prime? {ps : List RsaPrime} (h : ∀ p ∈ ps, p.encode.length < lengthBound) :
    (ps.map primeElement).mapM prime? = some (ps.map RsaPrime.encode) := by
  induction ps with
  | nil => rfl
  | cons p ps ih =>
    obtain ⟨hp, hps⟩ := List.forall_mem_cons.mp h
    rw [List.map_cons, List.mapM_cons, prime?_primeElement hp, ih hps]
    rfl

theorem primes?_tailElements {k : RsaKey} (h : k.encode.length < lengthBound) :
    primes? k.version.toNat (tailElements k) = some k.tail := by
  by_cases hmore : k.more = []
  · unfold RsaKey.version tailElements RsaKey.tail
    rw [if_pos hmore, if_pos hmore, if_pos hmore]
    rfl
  · have htail : k.tail = [Der.sequence (k.more.map RsaPrime.encode)] := if_neg hmore
    have hlength : (Der.sequence (k.more.map RsaPrime.encode)).length < lengthBound := by
      refine length_part_lt (List.mem_cons_of_mem _ (List.mem_append_right _ ?_)) h
      rw [htail]
      exact List.mem_cons_self
    have hprimes : ∀ p ∈ k.more, p.encode.length < lengthBound := fun p hp =>
      length_part_lt (List.mem_map_of_mem hp) hlength
    have hrow : List.Forall₂ (Stands .basic) (k.more.map RsaPrime.encode)
        (k.more.map primeElement) := by
      rw [List.forall₂_map_left_iff, List.forall₂_map_right_iff, List.forall₂_same]
      intro p hp
      exact stands_prime (hprimes p hp)
    have hsome : k.more.map RsaPrime.encode ≠ [] := mt List.map_eq_nil_iff.mp hmore
    have hread : (sequenceElement (k.more.map RsaPrime.encode)).row? Tag.sequence
        = some (k.more.map primeElement) := readAll?_of_stands hrow
    unfold RsaKey.version tailElements
    rw [htail, if_neg hmore, if_neg hmore, primes?, hread, Option.bind_some, mapM_prime? hprimes]
    exact if_neg fun hnone => hsome hnone.2

/-- A key in canonical form is written anew as it was. -/
theorem rsa?_encode {k : RsaKey} (h : k.encode.length < lengthBound) :
    rsa? (sequenceElement k.parts) = some k.encode := by
  have hparts : (sequenceElement k.parts).sequence? = some (elements k) :=
    sequence?_of_stands (stands_elements h)
  have hversion : (valueElement Tag.integer [k.version]).small? = some (k.version.toNat : Int) := by
    unfold RsaKey.version
    split
    next => decide
    next => decide
  have hcount : (k.numbers.map naturalElement).length = 8 := rfl
  unfold rsa?
  rw [hparts]
  unfold elements
  dsimp only
  rw [hversion, List.take_left' hcount, List.drop_left' hcount, mapM_magnitude?]
  dsimp only
  rw [if_pos (by rfl), primes?_tailElements h, map_positive_magnitude]
  rfl

/-! ## Wrapped keys -/

/-- The name of the algorithm (rsaEncryption) with null beside it. -/
def rsaName : Bytes := Der.sequence [Der.oid (oidContent 1 2 [840, 113549, 1, 1, 1]), null]

/-- A key wrapped with the name of its algorithm (PKCS#8): version zero, the name, the key, and
perhaps attributes. -/
def wrapped (k : RsaKey) (attributes : List Bytes) : Bytes :=
  Der.sequence (smallInteger 0 :: rsaName :: octetString k.encode :: attributes)

/-- The element of a set of attributes. -/
def attributesElement (rows : List Bytes) : Element :=
  ⟨Tag.context 0, true, rows.flatten, constructed (Tag.context 0) rows⟩

/-- The wrapped forms of a key. -/
inductive IsWrapped (k : RsaKey) : Bytes → Prop
  | plain : IsWrapped k (wrapped k [])
  | attributed {rows : List Bytes} (hrows : areAttributes (attributesElement rows) = true)
    (hlength : (wrapped k [constructed (Tag.context 0) rows]).length < 2 ^ 63) :
    IsWrapped k (wrapped k [constructed (Tag.context 0) rows])

/-- What the name of the algorithm is read as. -/
def rsaNameElement : Element :=
  sequenceElement [Der.oid (oidContent 1 2 [840, 113549, 1, 1, 1]), null]

theorem ofElement?_rsaNameElement : AlgorithmIdentifier.ofElement? rsaNameElement
    = some ⟨Algorithm.oid .rsa, some (valueElement Tag.null [])⟩ := by
  decide +kernel

theorem ofOid?_rsa (reach : Reach) : Algorithm.ofOid? reach (Algorithm.oid .rsa) = some .rsa := by
  cases reach with
  | usual => decide +kernel
  | full => decide +kernel

theorem stands_encode {k : RsaKey} (h : k.encode.length < lengthBound) :
    Stands rules k.encode (sequenceElement k.parts) := stands_sequence (length_flatten_lt h)

/-- A wrapped key is taken out of its wrapping, whatever attributes it has. -/
theorem ofWrapped?_eq (reach : Reach) {k : RsaKey} {attributes : List Bytes} {es : List Element}
    (hlength : (wrapped k attributes).length < lengthBound)
    (hes : List.Forall₂ (Stands .basic) attributes es)
    (hattributes : optional (Tag.context 0) es = (es.head?, []))
    (hrows : absentOr areAttributes es.head? = true) :
    ofWrapped? reach (sequenceElement (smallInteger 0 :: rsaName :: octetString k.encode
      :: attributes)) = some ⟨.rsa, some k.encode⟩ := by
  have hname : rsaName.length < lengthBound := length_part_lt (by simp) hlength
  have hoctets : (octetString k.encode).length < lengthBound := length_part_lt (by simp) hlength
  have hencode : k.encode.length < lengthBound :=
    Nat.lt_of_le_of_lt (length_content_le _ _) hoctets
  have hparts : (sequenceElement (smallInteger 0 :: rsaName :: octetString k.encode
      :: attributes)).sequence? = some (valueElement Tag.integer [0] :: rsaNameElement
        :: valueElement Tag.octetString k.encode :: es) := by
    refine sequence?_of_stands (.cons ?_ (.cons ?_ (.cons ?_ hes)))
    · exact stands_value (by decide) (by decide) (by decide)
    · exact stands_sequence (length_flatten_lt hname)
    · exact stands_value (by decide) (by decide) hencode
  have hinner : read? .basic k.encode = some (sequenceElement k.parts, []) :=
    (stands_encode hencode).read?_eq
  have hcontent : (valueElement Tag.octetString k.encode).octetString? = some k.encode := rfl
  have hversion : (valueElement Tag.integer [0]).isInteger = true := by decide
  have hsecret : secret? reach .rsa (some (valueElement Tag.null [])) (sequenceElement k.parts)
      = some k.encode := rsa?_encode hencode
  unfold ofWrapped?
  rw [hparts]
  dsimp only
  rw [hattributes, ofElement?_rsaNameElement, hcontent]
  simp only [Option.bind_eq_bind, Option.bind_some, hinner, ofOid?_rsa, hsecret, hversion, hrows,
    and_self, if_true]

theorem length_wrapped_lt {k : RsaKey} (h : k.encode.length < 2 ^ 63) :
    (wrapped k []).length < lengthBound := by
  have hname : rsaName.length = 15 := by decide +kernel
  have hversion : (smallInteger 0).length = 3 := rfl
  have hoctets : (octetString k.encode).length ≤ k.encode.length + 10 :=
    length_framed_le (by decide) (Nat.lt_trans h (by decide))
  have hcontent : ([smallInteger 0, rsaName, octetString k.encode] : List Bytes).flatten.length
      ≤ k.encode.length + 28 := by
    simp only [List.flatten_cons, List.flatten_nil, List.length_append, List.length_nil, hname,
      hversion]
    omega
  have hwhole : (wrapped k []).length
      ≤ ([smallInteger 0, rsaName, octetString k.encode] : List Bytes).flatten.length + 10 :=
    length_framed_le (by decide) (Nat.lt_of_le_of_lt hcontent (by simp only [lengthBound]; omega))
  simp only [lengthBound]
  omega

/-- A wrapped key is read off the front of any bytes. -/
theorem IsWrapped.exists_stands {k : RsaKey} {w : Bytes} (h : IsWrapped k w)
    (hsize : k.encode.length < 2 ^ 63) : ∃ e, Stands .basic w e
      ∧ ∀ reach, ofWrapped? reach e = some ⟨.rsa, some k.encode⟩ := by
  cases h with
  | plain =>
    have hlength := length_wrapped_lt hsize
    exact ⟨_, stands_sequence (length_flatten_lt hlength), fun reach =>
      ofWrapped?_eq reach hlength .nil rfl rfl⟩
  | @attributed rows hrows hlength =>
    have hlength : (wrapped k [constructed (Tag.context 0) rows]).length < lengthBound :=
      Nat.lt_trans hlength (by decide)
    have hset : (constructed (Tag.context 0) rows).length < lengthBound :=
      length_part_lt (by simp) hlength
    have hstands : Stands .basic (constructed (Tag.context 0) rows) (attributesElement rows) := by
      intro rest
      refine read?_constructed .basic rest (by decide) (by decide) ?_
      simp only [constructed, List.length_append] at hset
      omega
    exact ⟨_, stands_sequence (length_flatten_lt hlength), fun reach =>
      ofWrapped?_eq reach hlength (.cons hstands .nil) rfl hrows⟩

/-! ## Bare keys -/

theorem ofBare?_eq (reach : Reach) {k : RsaKey} (h : k.encode.length < lengthBound) :
    ofBare? reach .rsa (sequenceElement k.parts) = some ⟨.rsa, some k.encode⟩ := by
  show (rsa? (sequenceElement k.parts)).map _ = _
  rw [rsa?_encode h]
  rfl

/-- A bare key is not taken for a wrapped one: where the name of an algorithm should stand, it has
a number. -/
theorem ofWrapped?_parts (reach : Reach) {k : RsaKey} (h : k.encode.length < lengthBound) :
    ofWrapped? reach (sequenceElement k.parts) = none := by
  have hparts : (sequenceElement k.parts).sequence? = some (elements k) :=
    sequence?_of_stands (stands_elements h)
  have hname : AlgorithmIdentifier.ofElement? (naturalElement k.modulus) = none := rfl
  unfold ofWrapped?
  rw [hparts]
  unfold elements RsaKey.numbers
  rw [List.map_cons, List.map_cons, List.cons_append, List.cons_append]
  dsimp only
  rw [hname]
  rfl

/-! ## The front of a file -/

theorem front?_encode {k : RsaKey} (h : k.encode.length < lengthBound) (rest : Bytes) :
    front? (k.encode ++ rest) = some ⟨.rsa, some k.encode⟩ := by
  unfold front?
  rw [stands_encode h rest, Option.bind_some]
  unfold ofElement?
  rw [List.findSome?_cons, ofWrapped?_parts .usual h, List.findSome?_cons, ofBare?_eq .usual h]
  rfl

theorem IsWrapped.front?_eq {k : RsaKey} {w : Bytes} (h : IsWrapped k w)
    (hsize : k.encode.length < 2 ^ 63) (rest : Bytes) :
    front? (w ++ rest) = some ⟨.rsa, some k.encode⟩ := by
  obtain ⟨e, hstands, hread⟩ := h.exists_stands hsize
  unfold front?
  rw [hstands rest, Option.bind_some]
  unfold ofElement?
  rw [List.findSome?_cons, hread]
  rfl

end Key

end Keystore
