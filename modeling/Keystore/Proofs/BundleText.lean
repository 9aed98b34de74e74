import Keystore.Proofs.ArmorText
import Keystore.Proofs.Bundle
import Keystore.Proofs.Certificate

/-!
# Bundles that load completely

A bundle is a text that holds certificates as armoured blocks, in either of two labels, in rows of
any usual width, and with either line end, among other text and blocks of other labels
(`Bundle.IsBundle`). From such a text exactly its certificates are loaded, in order. The proof goes
along the text: each part of it ends where a line does, so what stands behind it is read as if it
were the whole file (`Bundle.IsBundle.isRead`).

A certificate that stands alone in its distinguished form, whatever bytes are behind it, is
loaded as those bytes, and so is the same certificate in armour
(`Shell.run_certificatesIn_bundle`).
-/

namespace Keystore

open Armor (LinesThen OpensBlock IsLabel lineEnds newline beginMark dashes)

namespace Bundle

/-- A text that holds certificates as armoured blocks. Lines of text have no row of five dashes in
them. A block of another label is one that the reader of blocks accepts, standing alone. -/
inductive IsBundle : List Bytes → Bytes → Prop
  | nil : IsBundle [] []
  | text {line s rest : Bytes} {certificates : List Bytes} (hline : ¬ dashes <:+: line)
    (hs : LinesThen [line] s rest) (more : IsBundle certificates rest) : IsBundle certificates s
  | certificate {label c s rest : Bytes} {width : Nat} {certificates : List Bytes}
    (hlabel : label ∈ certificateLabels) (hpos : 0 < width) (hwidth : width ≤ 76)
    (hc : Certificate.IsCanonical c) (hs : LinesThen (Armor.blockLines label width c) s rest)
    (more : IsBundle certificates rest) : IsBundle (c :: certificates) s
  | other {label block rest : Bytes} {b : Armor.Block} {certificates : List Bytes}
    (hlabel : label ∉ certificateLabels) (hblock : OpensBlock label b (Armor.pieces block))
    (hend : (∃ front, block = front ++ [newline]) ∨ rest = [])
    (more : IsBundle certificates rest) : IsBundle certificates (block ++ rest)

/-! ## Parts of a bundle -/

theorem isLabel_of_mem {label : Bytes} (h : label ∈ certificateLabels) : IsLabel label := by
  simp only [certificateLabels, List.mem_cons, List.not_mem_nil, or_false] at h
  rcases h with rfl | rfl
  · exact ⟨by decide, by decide +kernel⟩
  · exact ⟨by decide, by decide +kernel⟩

/-- Dashes that stand in front of a line end stand in the line. -/
theorem infix_of_infix_append {line lineEnd : Bytes} (h : dashes <:+: line ++ lineEnd)
    (hend : (0x2D : UInt8) ∉ lineEnd) : dashes <:+: line := by
  obtain ⟨front, back, hsplit⟩ := h
  rcases List.append_eq_append_iff.mp hsplit with ⟨more, hline, -⟩ | ⟨more, hfront, hmore⟩
  · exact ⟨front, more, hline.symm⟩
  · rcases List.eq_nil_or_concat more with rfl | ⟨init, last, rfl⟩
    · rw [List.append_nil] at hfront
      exact ⟨front, [], by rw [List.append_nil, hfront]⟩
    · -- the last dash would be in the line end
      rw [List.concat_eq_append, show dashes = List.replicate 4 0x2D ++ [0x2D] from rfl,
        ← List.append_assoc, ← List.append_assoc] at hfront
      obtain ⟨-, hlast⟩ := List.append_inj' hfront rfl
      obtain rfl := (List.cons.inj hlast).1
      rw [hmore, List.concat_eq_append] at hend
      exact absurd (List.mem_append_left _ (List.mem_append_right _ List.mem_cons_self)) hend

/-- What has no row of five dashes in it does not open a block. -/
theorem not_beginMark_of_mem_pieces {s piece : Bytes} (h : ¬ dashes <:+: s)
    (hpiece : piece ∈ Armor.pieces s) : ¬ beginMark <:+: piece := fun hbegin =>
  have hdashes : dashes <+: beginMark := ⟨Bytes.ascii "BEGIN ", rfl⟩
  h (hdashes.isInfix.trans (hbegin.trans (Armor.infix_of_mem_pieces hpiece)))

/-- A line of text is cut into pieces that do not open a block. -/
theorem exists_pieces_of_text {line s rest : Bytes} (hline : ¬ dashes <:+: line)
    (hs : LinesThen [line] s rest) :
    ∃ ps, Armor.pieces s = ps ++ Armor.pieces rest ∧ ∀ piece ∈ ps, ¬ beginMark <:+: piece := by
  cases hs with
  | @cons _ lineEnd hend _ s _ more =>
    cases more
    have hdash : ∀ e ∈ lineEnds, (0x2D : UInt8) ∉ e := by decide
    exact ⟨_, Armor.pieces_append_of_mem_lineEnds hend line rest, fun piece hpiece =>
      not_beginMark_of_mem_pieces (fun h => hline (infix_of_infix_append h (hdash lineEnd hend)))
        hpiece⟩
  | last =>
    exact ⟨_, (List.append_nil _).symm, fun piece hpiece =>
      not_beginMark_of_mem_pieces hline hpiece⟩

/-- A certificate in distinguished form is what a block of it holds. -/
theorem certificateIn?_of_isCanonical {c : Bytes} (h : Certificate.IsCanonical c) (label : Bytes) :
    certificateIn? ⟨label, [], c⟩ = some c := by
  obtain ⟨certificate, hread, -, hencode⟩ := h.exists_read? []
  rw [List.append_nil] at hread
  unfold certificateIn?
  rw [if_pos rfl, hread, Option.map_some, hencode]

theorem ne_nil_of_isCanonical {c : Bytes} (h : Certificate.IsCanonical c) : c ≠ [] := by
  rintro rfl
  obtain ⟨certificate, hread, -⟩ := h.exists_read? []
  have hnone : Certificate.read? ([] ++ []) = none := by decide +kernel
  exact nomatch hnone.symm.trans hread

/-! ## Whole bundles -/

/-- A text is read as the given certificates, and its first block is found whether or not the text
is the front of the file, where a byte order mark would be dropped. -/
structure IsRead (certificates : List Bytes) (s : Bytes) : Prop where
  certificates : armouredCertificates (Armor.outcomes (Armor.pieces s)) = certificates
  first : Armor.findBegin false (Armor.pieces s) = Armor.findBegin true (Armor.pieces s)

/-- A block in front of a text. -/
theorem IsRead.block {others : List Bytes} {rest : Bytes} (h : IsRead others rest)
    (certificates : List Bytes) {label s : Bytes} {b : Armor.Block} {ps : List Bytes}
    (hs : Armor.pieces s = ps ++ Armor.pieces rest) (hblock : OpensBlock label b ps)
    (hread : ∀ more, armouredCertificates (.block b (Armor.pieces rest) :: more)
      = certificates ++ armouredCertificates more) : IsRead (certificates ++ others) s where
  certificates := by rw [hs, Armor.outcomes_of_opensBlock hblock, hread, h.certificates]
  first := by
    rw [hs]
    exact Armor.findBegin_first_of_opensBlock hblock (Armor.pieces rest)

theorem IsBundle.isRead {certificates : List Bytes} {s : Bytes} (h : IsBundle certificates s) :
    IsRead certificates s := by
  induction h with
  | nil => exact ⟨by decide +kernel, rfl⟩
  | text hline hs _ ih =>
    obtain ⟨ps, hps, hnone⟩ := exists_pieces_of_text hline hs
    constructor
    · rw [hps, Armor.outcomes_append hnone ih.first, ih.certificates]
    · rw [hps]
      exact Armor.findBegin_first_append hnone ih.first
  | @certificate label c s rest width certificates hlabel hpos hwidth hc hs _ ih =>
    obtain ⟨ps, hps, hblock⟩ := Armor.opensBlock_of_linesThen (isLabel_of_mem hlabel) hpos
      (Nat.le_trans hwidth (by decide)) (ne_nil_of_isCanonical hc) hs
    exact ih.block [c] hps hblock
      (armouredCertificates_of_some hlabel (certificateIn?_of_isCanonical hc label))
  | @other label block rest b certificates hlabel hblock hend _ ih =>
    have hps : Armor.pieces (block ++ rest) = Armor.pieces block ++ Armor.pieces rest := by
      rcases hend with ⟨front, rfl⟩ | rfl
      · exact Armor.pieces_append front rest
      · rw [List.append_nil, Armor.pieces_nil, List.append_nil]
    exact ih.block [] hps hblock
      (armouredCertificates_of_notMem (by rw [hblock.label_eq]; exact hlabel))

/-! ## Written bundles -/

/-- Lines with the same line end, in front of other lines. -/
theorem linesThen_flatMap {lineEnd : Bytes} (h : lineEnd ∈ lineEnds) (lines : List Bytes)
    {more : List Bytes} {s rest : Bytes} (hs : LinesThen more s rest) :
    LinesThen (lines ++ more) (lines.flatMap (· ++ lineEnd) ++ s) rest := by
  induction lines with
  | nil => exact hs
  | cons line lines ih =>
    rw [List.flatMap_cons, List.append_assoc, List.cons_append]
    exact .cons line h ih

theorem linesThen_write {lineEnd : Bytes} (h : lineEnd ∈ lineEnds) (label : Bytes) (width : Nat)
    (contents rest : Bytes) : LinesThen (Armor.blockLines label width contents)
      (Armor.write lineEnd label width contents ++ rest) rest := by
  have hlines := linesThen_flatMap h (Armor.blockLines label width contents) (.nil rest)
  rwa [List.append_nil] at hlines

/-- A written block ends where a line does. -/
theorem exists_write_eq {lineEnd : Bytes} (h : lineEnd ∈ lineEnds) (label : Bytes) (width : Nat)
    (contents : Bytes) :
    ∃ front, Armor.write lineEnd label width contents = front ++ [newline] := by
  obtain ⟨front, rfl, -, -⟩ := Armor.exists_of_mem_lineEnds h
  rw [Armor.write, Armor.blockLines, List.flatMap_append, List.flatMap_singleton]
  exact ⟨_, by rw [← List.append_assoc, ← List.append_assoc]⟩

theorem opensBlock_write {lineEnd : Bytes} (h : lineEnd ∈ lineEnds) {label contents : Bytes}
    {width : Nat} (hlabel : IsLabel label) (hpos : 0 < width) (hwidth : width ≤ 250)
    (hcontents : contents ≠ []) :
    OpensBlock label ⟨label, [], contents⟩
      (Armor.pieces (Armor.write lineEnd label width contents)) := by
  have hlines := linesThen_write h label width contents []
  rw [List.append_nil] at hlines
  obtain ⟨ps, hps, hblock⟩ := Armor.opensBlock_of_linesThen hlabel hpos hwidth hcontents hlines
  rw [Armor.pieces_nil, List.append_nil] at hps
  rwa [hps]

/-- A written certificate in front of a bundle. -/
theorem IsBundle.write {certificates : List Bytes} {rest : Bytes}
    (more : IsBundle certificates rest) {lineEnd label c : Bytes} {width : Nat}
    (hend : lineEnd ∈ lineEnds) (hlabel : label ∈ certificateLabels) (hpos : 0 < width)
    (hwidth : width ≤ 76) (hc : Certificate.IsCanonical c) :
    IsBundle (c :: certificates) (Armor.write lineEnd label width c ++ rest) :=
  .certificate hlabel hpos hwidth hc (linesThen_write hend label width c rest) more

/-- A written block of another label in front of a bundle. -/
theorem IsBundle.writeOther {certificates : List Bytes} {rest : Bytes}
    (more : IsBundle certificates rest) {lineEnd label contents : Bytes} {width : Nat}
    (hend : lineEnd ∈ lineEnds) (hlabel : IsLabel label) (hother : label ∉ certificateLabels)
    (hpos : 0 < width) (hwidth : width ≤ 250) (hcontents : contents ≠ []) :
    IsBundle certificates (Armor.write lineEnd label width contents ++ rest) :=
  .other hother (opensBlock_write hend hlabel hpos hwidth hcontents)
    (Or.inl (exists_write_eq hend label width contents)) more

end Bundle

open Keystore.Bundle

namespace Shell

/-- What is read from a file. -/
theorem run_certificatesIn_of_certificates {s : Session} {path data : Bytes}
    {certificates : List Bytes} (hread : s.files.read path = .ok data) (hdata : data ≠ [])
    (hcertificates : Bundle.certificates data = certificates) (hsome : certificates ≠ []) :
    (certificatesIn path).run.run s = (.ok certificates, s) :=
  run_certificatesIn_eq_ok.mpr ⟨data, hread, hdata, hcertificates.symm, hsome, rfl⟩

theorem run_certificatesIn_of_isBundle {s : Session} {path data : Bytes}
    {certificates : List Bytes} (hread : s.files.read path = .ok data)
    (hbundle : IsBundle certificates data) (hsome : certificates ≠ []) :
    (certificatesIn path).run.run s = (.ok certificates, s) := by
  have harmoured := hbundle.isRead.certificates
  refine run_certificatesIn_of_certificates hread ?_ ?_ hsome
  · rintro rfl
    exact hsome (harmoured.symm.trans (by decide +kernel))
  · unfold Bundle.certificates
    rw [harmoured]
    split
    next => exact absurd rfl hsome
    next => rfl

theorem run_certificatesIn_of_isCanonical {s : Session} {path c t : Bytes}
    (hread : s.files.read path = .ok (c ++ t)) (hc : Certificate.IsCanonical c)
    (hplain : ¬ beginMark <:+: c ++ t) :
    (certificatesIn path).run.run s = (.ok [c], s) := by
  refine run_certificatesIn_of_certificates hread ?_ ?_ (List.cons_ne_nil _ _)
  · exact List.append_ne_nil_of_left_ne_nil (ne_nil_of_isCanonical hc) t
  · obtain ⟨certificate, hcertificate, hraw, -⟩ := hc.exists_read? t
    unfold Bundle.certificates
    rw [Armor.outcomes_eq_nil hplain, hcertificate, ← hraw]
    rfl

/-- A bundle loads completely: its certificates are loaded, in order, and nothing else. A
certificate in distinguished form that stands alone in a file is loaded too, with any bytes
behind it that do not open a block, and as the same bytes as from any block that it is
written as. -/
theorem run_certificatesIn_bundle :
    (∀ (s : Session) (path data : Bytes) (certificates : List Bytes),
      s.files.read path = .ok data → IsBundle certificates data → certificates ≠ [] →
        (certificatesIn path).run.run s = (.ok certificates, s))
    ∧ ∀ c t : Bytes, Certificate.IsCanonical c → ¬ beginMark <:+: c ++ t →
      ∀ (s : Session) (path : Bytes), s.files.read path = .ok (c ++ t) →
        (certificatesIn path).run.run s = (.ok [c], s)
        ∧ ∀ (s' : Session) (path' lineEnd label : Bytes) (width : Nat), lineEnd ∈ lineEnds →
          label ∈ certificateLabels → 0 < width → width ≤ 76 →
          s'.files.read path' = .ok (Armor.write lineEnd label width c) →
            ((certificatesIn path').run.run s').1 = ((certificatesIn path).run.run s).1 := by
  refine ⟨fun s path data certificates hread hbundle hsome =>
    run_certificatesIn_of_isBundle hread hbundle hsome, ?_⟩
  intro c t hc hplain s path hread
  have hrun := run_certificatesIn_of_isCanonical hread hc hplain
  refine ⟨hrun, ?_⟩
  intro s' path' lineEnd label width hend hlabel hpos hwidth hread'
  have hbundle := IsBundle.nil.write hend hlabel hpos hwidth hc
  rw [List.append_nil] at hbundle
  rw [hrun, run_certificatesIn_of_isBundle hread' hbundle (List.cons_ne_nil _ _)]

/-! ## A sample -/

/-- A certificate in distinguished form. -/
def sampleCertificate : Bytes :=
  [0x30, 0x26, 0x30, 0x1C, 2, 1, 1, 0x30, 3, 6, 1, 0x2A, 0x30, 0, 0x30, 4, 0x17, 0, 0x17, 0, 0x30,
    0, 0x30, 8, 0x30, 3, 6, 1, 0x2A, 3, 1, 0, 0x30, 3, 6, 1, 0x2A, 3, 1, 0]

theorem isCanonical_sampleCertificate : Certificate.IsCanonical sampleCertificate := by
  have hwhole : Der.readOne? .distinguished sampleCertificate
      = some ⟨Der.Tag.sequence, true, sampleCertificate.drop 2, sampleCertificate⟩ := by
    decide +kernel
  have hparts : (⟨Der.Tag.sequence, true, sampleCertificate.drop 2, sampleCertificate⟩ :
      Der.Element).parts? = some [
        ⟨Der.Tag.sequence, true, (sampleCertificate.drop 4).take 28,
          (sampleCertificate.drop 2).take 30⟩,
        ⟨Der.Tag.sequence, true, [6, 1, 0x2A], [0x30, 3, 6, 1, 0x2A]⟩,
        ⟨Der.Tag.bitString, false, [0], [3, 1, 0]⟩] := by
    decide +kernel
  have halgorithm : (⟨Der.Tag.sequence, true, [6, 1, 0x2A], [0x30, 3, 6, 1, 0x2A]⟩ :
      Der.Element).parts? = some [⟨Der.Tag.oid, false, [0x2A], [6, 1, 0x2A]⟩] := by
    decide +kernel
  have hname : (⟨Der.Tag.oid, false, [0x2A], [6, 1, 0x2A]⟩ : Der.Element).oid? = some [0x2A] := by
    decide +kernel
  have hbits : (⟨Der.Tag.bitString, false, [0], [3, 1, 0]⟩ : Der.Element).bitString?
      = some ⟨0, []⟩ := by
    decide +kernel
  exact .intro hwhole hparts (by decide +kernel) (.bare halgorithm hname) rfl hbits
    (by decide +kernel)

/-- A line of text, a block of another label, and the certificate twice, in rows of different
widths and with different line ends. -/
def sampleBundle : Bytes :=
  Bytes.ascii "two of them" ++ [newline]
    ++ (Armor.write [0x0D, newline] (Bytes.ascii "DH PARAMETERS") 64 [0x30, 0]
      ++ (Armor.write [newline] (Bytes.ascii "CERTIFICATE") 20 sampleCertificate
        ++ (Armor.write [0x0D, newline] (Bytes.ascii "X509 CERTIFICATE") 76 sampleCertificate
          ++ [])))

theorem isBundle_sampleBundle : IsBundle [sampleCertificate, sampleCertificate] sampleBundle := by
  have hfeed : [newline] ∈ lineEnds := by decide
  have hreturn : [0x0D, newline] ∈ lineEnds := by decide
  have hlabel : IsLabel (Bytes.ascii "DH PARAMETERS") := ⟨by decide, by decide +kernel⟩
  have htext : ¬ dashes <:+: Bytes.ascii "two of them" := by decide +kernel
  refine .text htext (.cons _ hfeed (.nil _)) ?_
  refine IsBundle.writeOther ?_ hreturn hlabel (by decide) (by decide) (by decide) (by decide)
  refine IsBundle.write ?_ hfeed (by decide) (by decide) (by decide)
    isCanonical_sampleCertificate
  exact IsBundle.nil.write hreturn (by decide) (by decide) (by decide)
    isCanonical_sampleCertificate

/-- A session with one file. -/
def fileSession (data : Bytes) : Session :=
  { CommandLine.sampleSession with files := ⟨[([Bytes.ascii "b"], .file data)], []⟩ }

theorem read_fileSession (data : Bytes) :
    (fileSession data).files.read (Bytes.ascii "b") = .ok data := rfl

theorem run_certificatesIn_bundle_sample :
    (certificatesIn (Bytes.ascii "b")).run.run (fileSession sampleBundle)
        = (.ok [sampleCertificate, sampleCertificate], fileSession sampleBundle)
      ∧ (certificatesIn (Bytes.ascii "b")).run.run (fileSession (sampleCertificate ++ [0]))
        = (.ok [sampleCertificate], fileSession (sampleCertificate ++ [0]))
      ∧ ((certificatesIn (Bytes.ascii "b")).run.run (fileSession (Armor.write [newline]
          (Bytes.ascii "CERTIFICATE") 64 sampleCertificate))).1
        = ((certificatesIn (Bytes.ascii "b")).run.run
            (fileSession (sampleCertificate ++ [0]))).1 := by
  obtain ⟨hbundle, hone⟩ := run_certificatesIn_bundle
  have hplain : ¬ beginMark <:+: sampleCertificate ++ [0] := by decide +kernel
  obtain ⟨hrun, hsame⟩ := hone _ _ isCanonical_sampleCertificate hplain _ _ (read_fileSession _)
  refine ⟨hbundle _ _ _ _ (read_fileSession _) isBundle_sampleBundle (List.cons_ne_nil _ _), hrun,
    ?_⟩
  exact hsame _ _ _ _ 64 (by decide) (by decide) (by decide) (by decide) (read_fileSession _)

end Shell

end Keystore
