import Keystore.Proofs.BundleText
import Keystore.Proofs.RsaKey

/-!
# Keys in files

One RSA key can come in four kinds of files: bare or wrapped with the name of its algorithm, and
either form in armour or alone (`Bundle.IsKeyFile`). In armour it may stand behind lines of text
and behind blocks that hold certificates or the parameters of a curve, which the searches for a key
pass over. The first search gives up at some of these blocks, but then the second one finds the
key (`Bundle.Finds`).

Whatever the kind of file, the key that is loaded is the same, and so is the frame that it is
stored in (`Shell.run_keyIn_of_isKeyFile`).
-/

namespace Keystore

open Der (Tag lengthBound)
open Armor (LinesThen OpensBlock IsLabel newline beginMark dashes)

namespace Bundle

/-! ## Blocks without keys -/

/-- The labels of certificates, those of another kind among them. -/
def passedLabels : List Bytes := certificateLabels ++ [Bytes.ascii "TRUSTED CERTIFICATE"]

/-- The label of the parameters of a curve. -/
def curveLabel : Bytes := Bytes.ascii "EC PARAMETERS"

/-- The parameters of a curve: its name, null, or a description, in which a field and an equation
follow the version. -/
inductive IsCurve (contents : Bytes) : Prop
  | named {e : Der.Element} {rest : Bytes} (hread : Der.read? .basic contents = some (e, rest))
    (htag : e.tag = Tag.oid ∨ e.tag = Tag.null) : IsCurve contents
  | described {e version field equation : Der.Element} {more : List Der.Element} {rest : Bytes}
    (hread : Der.read? .basic contents = some (e, rest))
    (hparts : e.sequence? = some (version :: field :: equation :: more))
    (hfield : field.tag = Tag.sequence) (hequation : equation.tag = Tag.sequence) :
    IsCurve contents

theorem sequence?_of_tag {e : Der.Element} (h : e.tag ≠ Tag.sequence) : e.sequence? = none := by
  unfold Der.Element.sequence? Der.Element.row?
  rw [if_neg h, ite_self]

theorem octetString?_of_tag {e : Der.Element} (h : e.tag ≠ Tag.octetString) :
    e.octetString? = none := if_neg h

/-- What is no sequence is no key. -/
theorem noKey_of_sequence? {e : Der.Element} (h : e.sequence? = none) :
    Key.curve? none e = none ∧ Key.ofWrapped? .usual e = none := by
  unfold Key.curve? Key.ofWrapped?
  rw [h]
  exact ⟨rfl, rfl⟩

/-- A sequence is no key if it has no string of bytes where keys have one. -/
theorem noKey_of_described {e version field equation : Der.Element} {more : List Der.Element}
    (hparts : e.sequence? = some (version :: field :: equation :: more))
    (hfield : field.octetString? = none) (hequation : equation.octetString? = none) :
    Key.curve? none e = none ∧ Key.ofWrapped? .usual e = none := by
  unfold Key.curve? Key.ofWrapped?
  rw [hparts]
  dsimp only
  rw [hfield, hequation]
  constructor
  · exact if_neg fun h => Bool.false_ne_true h.2.1
  · cases AlgorithmIdentifier.ofElement? field with
    | none => rfl
    | some identifier => rfl

theorem read?_curve {contents : Bytes} (h : IsCurve contents) :
    (KeyLabel.keyOf .ec).read? .usual contents = none := by
  have hnone : ∀ e : Der.Element, ∀ rest : Bytes, Der.read? .basic contents = some (e, rest) →
      Key.curve? none e = none ∧ Key.ofWrapped? .usual e = none →
        (KeyLabel.keyOf .ec).read? .usual contents = none := by
    intro e rest hread ⟨hbare, hwrapped⟩
    unfold KeyLabel.read? Key.ofBare?
    rw [hread, Option.bind_some, hbare, hwrapped]
    rfl
  cases h with
  | @named e rest hread htag =>
    refine hnone e rest hread (noKey_of_sequence? (sequence?_of_tag ?_))
    rcases htag with htag | htag
    · rw [htag]
      decide
    · rw [htag]
      decide
  | @described e version field equation more rest hread hparts hfield hequation =>
    refine hnone e rest hread (noKey_of_described hparts (octetString?_of_tag ?_)
      (octetString?_of_tag ?_))
    · rw [hfield]
      decide
    · rw [hequation]
      decide

/-- Neither search finds a key in a block with one of these labels. -/
theorem passedLabels_spec : ∀ label ∈ passedLabels,
    keyLabel? label = none ∧ knownLabels.lookup label = none := by
  decide +kernel

theorem curveLabel_spec :
    keyLabel? curveLabel = none ∧ knownLabels.lookup curveLabel = some (.keyOf .ec) := by
  decide +kernel

/-! ## Keys in armour -/

/-- A text that holds something in an armoured block of the given label, behind lines of text,
which have no row of five dashes in them, and blocks that hold no key. What follows the block does
not matter. -/
inductive IsArmoured (label contents : Bytes) : Bytes → Prop
  | key {width : Nat} {s rest : Bytes} (hpos : 0 < width) (hwidth : width ≤ 76)
    (hs : LinesThen (Armor.blockLines label width contents) s rest) : IsArmoured label contents s
  | text {line s rest : Bytes} (hline : ¬ dashes <:+: line) (hs : LinesThen [line] s rest)
    (more : IsArmoured label contents rest) : IsArmoured label contents s
  | certificate {other block rest : Bytes} {b : Armor.Block} (hother : other ∈ passedLabels)
    (hblock : OpensBlock other b (Armor.pieces block)) (hend : ∃ front, block = front ++ [newline])
    (more : IsArmoured label contents rest) : IsArmoured label contents (block ++ rest)
  | curve {block rest : Bytes} {b : Armor.Block}
    (hblock : OpensBlock curveLabel b (Armor.pieces block)) (hcurve : IsCurve b.contents)
    (hend : ∃ front, block = front ++ [newline]) (more : IsArmoured label contents rest) :
    IsArmoured label contents (block ++ rest)

/-- The second search finds the key in a text, and the first one finds it or nothing, whether or
not the text is the front of the file. -/
structure Finds (key : Key) (s : Bytes) : Prop where
  strict : strictKey? (Armor.outcomes (Armor.pieces s)) = some key
  lenient : lenientKey? (Armor.outcomes (Armor.pieces s)) = some key
    ∨ lenientKey? (Armor.outcomes (Armor.pieces s)) = none
  first : Armor.findBegin false (Armor.pieces s) = Armor.findBegin true (Armor.pieces s)

theorem Finds.key?_eq {key : Key} {s : Bytes} (h : Finds key s) : key? s = some key := by
  unfold key?
  dsimp only
  rw [h.strict]
  rcases h.lenient with hfound | hnone
  · rw [hfound]
    rfl
  · rw [hnone]
    rfl

section

variable {b : Armor.Block} (rest : List Bytes) (more : List Armor.Outcome)

theorem strictKey?_of_none (h : keyLabel? b.label = none) :
    strictKey? (.block b rest :: more) = strictKey? more := by
  rw [strictKey?.eq_def]
  simp only [h]

theorem strictKey?_of_some {l : KeyLabel} (h : keyLabel? b.label = some l)
    (hheader : b.header = []) :
    strictKey? (.block b rest :: more) = l.read? .full b.contents := by
  rw [strictKey?.eq_def]
  simp only [h]
  exact if_pos hheader

theorem lenientKey?_of_some {l : KeyLabel} {key : Key} (h : knownLabels.lookup b.label = some l)
    (hheader : b.header = []) (hread : l.read? .usual b.contents = some key) :
    lenientKey? (.block b rest :: more) = some key := by
  have hshort : ¬ headerLimit < b.header.length := by
    rw [hheader]
    decide
  refine (if_neg hshort).trans ?_
  rw [h, Option.bind_some, hread]
  rfl

/-- The first search goes past a block without a key, or gives up. -/
theorem lenientKey?_of_none
    (h : (knownLabels.lookup b.label).bind (·.read? .usual b.contents) = none) :
    lenientKey? (.block b rest :: more) = lenientKey? more
      ∨ lenientKey? (.block b rest :: more) = none := by
  by_cases hlong : headerLimit < b.header.length
  · have hskips : lenientKey? (.block b rest :: more)
        = if isForeign b.header then lenientKey? more else none := if_pos hlong
    rw [hskips]
    split
    next => exact Or.inl rfl
    next => exact Or.inr rfl
  · refine Or.inl ((if_neg hlong).trans ?_)
    rw [h]
    rfl

end

/-- A block that holds no key, in front of a text. -/
theorem Finds.block {key : Key} {label block rest : Bytes} {b : Armor.Block} (h : Finds key rest)
    (hblock : OpensBlock label b (Armor.pieces block)) (hend : ∃ front, block = front ++ [newline])
    (hstrict : keyLabel? label = none)
    (hlenient : (knownLabels.lookup label).bind (·.read? .usual b.contents) = none) :
    Finds key (block ++ rest) := by
  have hpieces : Armor.pieces (block ++ rest) = Armor.pieces block ++ Armor.pieces rest := by
    obtain ⟨front, rfl⟩ := hend
    exact Armor.pieces_append front rest
  have houtcomes := Armor.outcomes_of_opensBlock hblock (Armor.pieces rest)
  rw [← hblock.label_eq] at hstrict hlenient
  constructor
  · rw [hpieces, houtcomes, strictKey?_of_none _ _ hstrict, h.strict]
  · rw [hpieces, houtcomes]
    rcases lenientKey?_of_none (Armor.pieces rest) (Armor.outcomes (Armor.pieces rest)) hlenient
      with hpassed | hnone
    · rw [hpassed]
      exact h.lenient
    · exact Or.inr hnone
  · rw [hpieces]
    exact Armor.findBegin_first_of_opensBlock hblock (Armor.pieces rest)

/-- A key in armour is found, if both searches know its label and read it alike. -/
theorem IsArmoured.finds {label contents s : Bytes} {l : KeyLabel} {key : Key}
    (h : IsArmoured label contents s) (hlabel : IsLabel label) (hcontents : contents ≠ [])
    (hstrict : keyLabel? label = some l) (hlenient : knownLabels.lookup label = some l)
    (hread : ∀ reach, l.read? reach contents = some key) : Finds key s := by
  induction h with
  | @key width s rest hpos hwidth hs =>
    obtain ⟨ps, hpieces, hblock⟩ := Armor.opensBlock_of_linesThen hlabel hpos
      (Nat.le_trans hwidth (by decide)) hcontents hs
    have houtcomes := Armor.outcomes_of_opensBlock hblock (Armor.pieces rest)
    constructor
    · rw [hpieces, houtcomes, strictKey?_of_some (b := ⟨label, [], contents⟩) _ _ hstrict rfl]
      exact hread .full
    · rw [hpieces, houtcomes]
      exact Or.inl
        (lenientKey?_of_some (b := ⟨label, [], contents⟩) _ _ hlenient rfl (hread .usual))
    · rw [hpieces]
      exact Armor.findBegin_first_of_opensBlock hblock (Armor.pieces rest)
  | @text line s rest hline hs _ ih =>
    obtain ⟨ps, hpieces, hnone⟩ := exists_pieces_of_text hline hs
    have hsame : Armor.outcomes (Armor.pieces s) = Armor.outcomes (Armor.pieces rest) := by
      rw [hpieces, Armor.outcomes_append hnone ih.first]
    refine ⟨hsame ▸ ih.strict, hsame ▸ ih.lenient, ?_⟩
    rw [hpieces]
    exact Armor.findBegin_first_append hnone ih.first
  | @certificate other block rest b hother hblock hend _ ih =>
    obtain ⟨hstrict', hlenient'⟩ := passedLabels_spec other hother
    refine ih.block hblock hend hstrict' ?_
    rw [hlenient']
    rfl
  | @curve block rest b hblock hcurve hend _ ih =>
    obtain ⟨hstrict', hlenient'⟩ := curveLabel_spec
    refine ih.block hblock hend hstrict' ?_
    rw [hlenient']
    exact read?_curve hcurve

/-! ## RSA keys in files -/

/-- The label of an RSA key in its canonical form. -/
def rsaLabel : Bytes := Bytes.ascii "RSA PRIVATE KEY"

/-- A file that holds an RSA key: in armour, or at its front. -/
inductive IsKeyFile (k : RsaKey) : Bytes → Prop
  | bareInArmour {s : Bytes} (hs : IsArmoured rsaLabel k.encode s) : IsKeyFile k s
  | wrappedInArmour {w s : Bytes} (hw : Key.IsWrapped k w) (hs : IsArmoured anyKeyLabel w s) :
    IsKeyFile k s
  | bare {t : Bytes} (hplain : ¬ beginMark <:+: k.encode ++ t) : IsKeyFile k (k.encode ++ t)
  | wrapped {w t : Bytes} (hw : Key.IsWrapped k w) (hplain : ¬ beginMark <:+: w ++ t) :
    IsKeyFile k (w ++ t)

/-- Both searches know the labels of RSA keys. -/
theorem rsaLabel_spec : keyLabel? rsaLabel = some (.keyOf .rsa)
    ∧ knownLabels.lookup rsaLabel = some (.keyOf .rsa) := by
  decide +kernel

theorem anyKeyLabel_spec : keyLabel? anyKeyLabel = some .anyKey
    ∧ knownLabels.lookup anyKeyLabel = some .anyKey := by
  decide +kernel

theorem isLabel_rsaLabel : IsLabel rsaLabel := ⟨by decide, by decide +kernel⟩

theorem isLabel_anyKeyLabel : IsLabel anyKeyLabel := ⟨by decide, by decide +kernel⟩

/-- The contents of a block that are one element. -/
theorem ne_nil_of_stands {s : Bytes} {e : Der.Element} (h : Key.Stands .basic s e) : s ≠ [] := by
  intro hempty
  have hread := h.read?_eq
  rw [hempty] at hread
  have hnone : Der.read? .basic [] = none := by decide +kernel
  exact nomatch hnone.symm.trans hread

theorem read?_encode {k : RsaKey} (h : k.encode.length < lengthBound) (reach : Key.Reach) :
    (KeyLabel.keyOf .rsa).read? reach k.encode = some ⟨.rsa, some k.encode⟩ := by
  have hread : Der.read? .basic k.encode = some (Key.sequenceElement k.parts, []) :=
    (Key.stands_encode h).read?_eq
  unfold KeyLabel.read?
  rw [hread, Option.bind_some]
  dsimp only
  rw [Key.ofBare?_eq reach h]
  rfl

/-- A file that opens no block is read from its front. -/
theorem key?_eq_front? {s : Bytes} (hplain : ¬ beginMark <:+: s) : key? s = Key.front? s := by
  unfold key?
  rw [Armor.outcomes_eq_nil hplain]
  rfl

/-- An RSA key is loaded from each of its files, as its canonical form. -/
theorem IsKeyFile.key?_eq {k : RsaKey} {data : Bytes} (h : IsKeyFile k data)
    (hsize : k.encode.length < 2 ^ 63) : key? data = some ⟨.rsa, some k.encode⟩ := by
  have hbound : k.encode.length < lengthBound := Nat.lt_trans hsize (by decide)
  cases h with
  | bareInArmour hs =>
    obtain ⟨hstrict, hlenient⟩ := rsaLabel_spec
    have hsome := ne_nil_of_stands (Key.stands_encode hbound)
    exact (hs.finds isLabel_rsaLabel hsome hstrict hlenient (read?_encode hbound)).key?_eq
  | @wrappedInArmour w s hw hs =>
    obtain ⟨hstrict, hlenient⟩ := anyKeyLabel_spec
    obtain ⟨e, hstands, hwrapped⟩ := hw.exists_stands hsize
    have hread : ∀ reach, KeyLabel.anyKey.read? reach w = some ⟨.rsa, some k.encode⟩ := by
      intro reach
      unfold KeyLabel.read?
      rw [hstands.read?_eq]
      exact hwrapped reach
    exact (hs.finds isLabel_anyKeyLabel (ne_nil_of_stands hstands) hstrict hlenient hread).key?_eq
  | @bare t hplain => rw [key?_eq_front? hplain, Key.front?_encode hbound]
  | @wrapped w t hw hplain => rw [key?_eq_front? hplain, hw.front?_eq hsize]

theorem IsKeyFile.ne_nil {k : RsaKey} {data : Bytes} (h : IsKeyFile k data)
    (hsize : k.encode.length < 2 ^ 63) : data ≠ [] := by
  intro hempty
  have hkey := h.key?_eq hsize
  rw [hempty] at hkey
  have hnone : key? [] = none := by decide +kernel
  exact nomatch hnone.symm.trans hkey

end Bundle

open Keystore.Bundle

namespace Shell

/-- The stored key does not depend on the file that it comes from: an RSA key is loaded from each
of its files, it can be stored, and it is stored in the same frame. No string of bytes in memory
reaches the bound. -/
theorem run_keyIn_of_isKeyFile {k : RsaKey} {s : Session} {path data : Bytes}
    (hsize : k.encode.length < 2 ^ 63) (hread : s.files.read path = .ok data)
    (hfile : IsKeyFile k data) :
    ∃ key : Key, (keyIn path).run.run s = (.ok key, s)
      ∧ key.storable? = some .rsa
      ∧ Key.frame .rsa key = .ok (Der.sequence [Der.smallInteger 0,
        Der.sequence [Der.oid (Der.oidContent 1 2 [840, 113549, 1, 1, 1]), Der.null],
        Der.octetString k.encode]) := by
  have hrun : (keyIn path).run.run s = (.ok ⟨.rsa, some k.encode⟩, s) :=
    run_keyIn_eq_ok.mpr ⟨data, hread, hfile.ne_nil hsize, hfile.key?_eq hsize, rfl⟩
  exact ⟨_, hrun, rfl, rfl⟩

/-! ## A sample -/

/-- A key of three primes. -/
def sampleRsaKey : RsaKey where
  modulus := 151951
  publicExponent := 17
  privateExponent := 10553
  prime1 := 61
  prime2 := 53
  exponent1 := 53
  exponent2 := 49
  coefficient := 38
  more := [⟨47, 19, 14⟩]

/-- The name of a curve (secp256k1). -/
def sampleCurve : Bytes := Der.oid (Der.oidContent 1 3 [132, 0, 10])

theorem isCurve_sampleCurve : IsCurve sampleCurve := by
  have hread : Der.read? .basic sampleCurve
      = some (Key.valueElement Tag.oid (Der.oidContent 1 3 [132, 0, 10]), []) := by
    decide +kernel
  exact .named hread (Or.inl rfl)

/-- The key behind a line of text, a certificate and the name of a curve. -/
def sampleKeyFile : Bytes :=
  Bytes.ascii "three primes" ++ [newline]
    ++ (Armor.write [newline] (Bytes.ascii "CERTIFICATE") 64 sampleCertificate
      ++ (Armor.write [0x0D, newline] curveLabel 64 sampleCurve
        ++ (Armor.write [newline] rsaLabel 64 sampleRsaKey.encode ++ [])))

theorem isKeyFile_sampleKeyFile : IsKeyFile sampleRsaKey sampleKeyFile := by
  have hfeed : [newline] ∈ Armor.lineEnds := by decide
  have hreturn : [0x0D, newline] ∈ Armor.lineEnds := by decide
  have htext : ¬ dashes <:+: Bytes.ascii "three primes" := by decide +kernel
  have hcertificate : IsLabel (Bytes.ascii "CERTIFICATE") := isLabel_of_mem (by decide)
  have hcurve : IsLabel curveLabel := ⟨by decide, by decide +kernel⟩
  refine .bareInArmour (.text htext (.cons _ hfeed (.nil _)) ?_)
  refine .certificate (by decide) (opensBlock_write hfeed hcertificate (by decide) (by decide)
    (by decide)) (exists_write_eq hfeed _ _ _) ?_
  refine .curve (opensBlock_write hreturn hcurve (by decide) (by decide) (by decide +kernel))
    isCurve_sampleCurve (exists_write_eq hreturn _ _ _) ?_
  exact .key (by decide) (by decide) (linesThen_write hfeed _ 64 _ [])

theorem run_keyIn_of_isKeyFile_sample :
    (∃ key : Key,
        (keyIn (Bytes.ascii "b")).run.run (fileSession sampleKeyFile)
          = (.ok key, fileSession sampleKeyFile)
        ∧ key.storable? = some .rsa
        ∧ Key.frame .rsa key = .ok (Der.sequence [Der.smallInteger 0,
          Der.sequence [Der.oid (Der.oidContent 1 2 [840, 113549, 1, 1, 1]), Der.null],
          Der.octetString sampleRsaKey.encode]))
      ∧ ∃ key : Key,
        (keyIn (Bytes.ascii "b")).run.run (fileSession (Key.wrapped sampleRsaKey [] ++ [0]))
          = (.ok key, fileSession (Key.wrapped sampleRsaKey [] ++ [0]))
        ∧ key.storable? = some .rsa
        ∧ Key.frame .rsa key = .ok (Der.sequence [Der.smallInteger 0,
          Der.sequence [Der.oid (Der.oidContent 1 2 [840, 113549, 1, 1, 1]), Der.null],
          Der.octetString sampleRsaKey.encode]) := by
  have hsize : sampleRsaKey.encode.length < 2 ^ 63 := by decide +kernel
  have hplain : ¬ beginMark <:+: Key.wrapped sampleRsaKey [] ++ [0] := by decide +kernel
  exact ⟨run_keyIn_of_isKeyFile hsize (read_fileSession _) isKeyFile_sampleKeyFile,
    run_keyIn_of_isKeyFile hsize (read_fileSession _) (.wrapped .plain hplain)⟩

end Shell

end Keystore
