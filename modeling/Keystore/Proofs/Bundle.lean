import Keystore.Proofs.Armor
import Keystore.Proofs.PackCommand

/-!
# Which certificates of a file are lost

The reader goes from block to block and stops at the first one that is damaged, whether or not it
was the last. So loading gives one certificate for each certificate block in front of the first
unsound block, in order, and says nothing of what stands behind it (`Bundle.IsLoaded`).

A bundle is read faithfully if nothing gets lost without a failure: there is a certificate for each
line that opens a certificate block, or a failure that names the file (`Bundle.IsFaithful`). Once
the reader has found a certificate, that is the case exactly if it has found as many as there are
such lines (`isFaithful_of_length_eq`, `length_eq_of_isFaithful`). If it has found none in the
blocks, the file fails by name, unless it can be taken for a certificate as it is
(`isFaithful_iff_of_found_eq_nil`). Loading is not faithful to every file.
-/

namespace Keystore

namespace Bundle

open Armor (Found Outcome)

/-- The certificate that a block holds, if it is a certificate block and nothing is wrong with
it. -/
def certificateOf? (f : Found) : Option Bytes :=
  match f.outcome with
  | .block b _ => if certificateLabels.contains f.label then certificateIn? b else none
  | .damaged _ => none

/-- Whether the reader goes past a block. -/
def isSound (f : Found) : Bool :=
  match f.outcome with
  | .block _ _ => !certificateLabels.contains f.label || (certificateOf? f).isSome
  | .damaged _ => false

/-- The lines of a file that open a certificate block. -/
def certificateLines (file : Bytes) : List Bytes :=
  (Armor.openings (Armor.pieces file)).filter certificateLabels.contains

/-- The certificates in all blocks of a file. -/
def readable (file : Bytes) : List Bytes :=
  (Armor.blocks (Armor.pieces file)).filterMap certificateOf?

/-- The certificates in front of the first unsound block of a file. -/
def found (file : Bytes) : List Bytes :=
  ((Armor.blocks (Armor.pieces file)).takeWhile isSound).filterMap certificateOf?

/-- Every certificate has a line that opens its block. -/
theorem length_readable_le (file : Bytes) :
    (readable file).length ≤ (certificateLines file).length := by
  have hlabel : ∀ f : Found, (certificateOf? f).isSome = true
      → certificateLabels.contains f.label = true := by
    intro f hsome
    unfold certificateOf? at hsome
    split at hsome
    next =>
      split at hsome
      next hmem => exact hmem
      next => exact nomatch hsome
    next => exact nomatch hsome
  calc (readable file).length
      = (Armor.blocks (Armor.pieces file)).countP fun f => (certificateOf? f).isSome :=
        List.length_filterMap_eq_countP
    _ ≤ (Armor.blocks (Armor.pieces file)).countP (certificateLabels.contains ∘ Found.label) :=
        List.countP_mono_left fun f _ => hlabel f
    _ = ((Armor.blocks (Armor.pieces file)).map Found.label).countP certificateLabels.contains :=
        List.countP_map.symm
    _ ≤ (Armor.openings (Armor.pieces file)).countP certificateLabels.contains :=
        (Armor.label_blocks_sublist _).countP_le
    _ = (certificateLines file).length := List.countP_eq_length_filter

/-- What is found is the beginning of what could be read. -/
theorem exists_readable_eq (file : Bytes) : ∃ lost, readable file = found file ++ lost := by
  refine ⟨((Armor.blocks (Armor.pieces file)).dropWhile isSound).filterMap certificateOf?, ?_⟩
  rw [found, ← List.filterMap_append, List.takeWhile_append_dropWhile, readable]

/-! ## Loading -/

theorem certificateOf?_of_block {f : Found} {b : Armor.Block} {rest : List Bytes}
    (h : f.outcome = .block b rest) (hlabel : f.label ∈ certificateLabels) :
    certificateOf? f = certificateIn? b := by
  unfold certificateOf?
  rw [h]
  exact if_pos (List.contains_iff_mem.mpr hlabel)

theorem certificateOf?_of_notMem {f : Found} (hlabel : f.label ∉ certificateLabels) :
    certificateOf? f = none := by
  unfold certificateOf?
  split
  next => exact if_neg fun hcontains => hlabel (List.contains_iff_mem.mp hcontains)
  next => rfl

theorem isSound_of_block {f : Found} {b : Armor.Block} {rest : List Bytes}
    (h : f.outcome = .block b rest) :
    isSound f = true ↔ f.label ∉ certificateLabels ∨ (certificateOf? f).isSome = true := by
  unfold isSound
  rw [h, Bool.or_eq_true, Bool.not_eq_true', ← Bool.not_eq_true, List.contains_iff_mem]

theorem not_isSound_of_damaged {f : Found} {rest : List Bytes} (h : f.outcome = .damaged rest) :
    ¬ isSound f = true := by
  unfold isSound
  rw [h]
  exact Bool.false_ne_true

section

variable {b : Armor.Block} {rest : List Bytes} {c : Bytes}

theorem armouredCertificates_of_some (hlabel : b.label ∈ certificateLabels)
    (h : certificateIn? b = some c) (more : List Outcome) :
    armouredCertificates (.block b rest :: more) = c :: armouredCertificates more := by
  refine (if_pos hlabel).trans ?_
  rw [h]

theorem armouredCertificates_of_none (hlabel : b.label ∈ certificateLabels)
    (h : certificateIn? b = none) (more : List Outcome) :
    armouredCertificates (.block b rest :: more) = [] := by
  refine (if_pos hlabel).trans ?_
  rw [h]

theorem armouredCertificates_of_notMem (hlabel : b.label ∉ certificateLabels)
    (more : List Outcome) :
    armouredCertificates (.block b rest :: more) = armouredCertificates more := if_neg hlabel

end

/-- The reader's recursion, block by block: a sound block gives what it holds, and the first
unsound one ends it. -/
theorem armouredCertificates_map {fs : List Found}
    (h : ∀ f ∈ fs, ∀ b rest, f.outcome = .block b rest → b.label = f.label) :
    armouredCertificates (fs.map Found.outcome)
      = (fs.takeWhile isSound).filterMap certificateOf? := by
  induction fs with
  | nil => rfl
  | cons f fs ih =>
    obtain ⟨hf, hfs⟩ := List.forall_mem_cons.mp h
    rw [List.map_cons]
    cases houtcome : f.outcome with
    | damaged rest =>
      rw [List.takeWhile_cons_of_neg (not_isSound_of_damaged houtcome)]
      rfl
    | block b rest =>
      have hsound := isSound_of_block houtcome
      have hlabel := hf b rest houtcome
      by_cases hmem : f.label ∈ certificateLabels
      · have hholds := certificateOf?_of_block houtcome hmem
        rw [← hlabel] at hmem
        rcases hcertificate : certificateIn? b with _ | c
        · have hunsound : ¬ isSound f = true := by
            rw [hsound, hholds, hcertificate, ← hlabel]
            rintro (hother | hnone)
            · exact hother hmem
            · exact Bool.false_ne_true hnone
          rw [armouredCertificates_of_none hmem hcertificate, List.takeWhile_cons_of_neg hunsound]
          rfl
        · rw [hcertificate] at hholds
          rw [armouredCertificates_of_some hmem hcertificate, ih hfs,
            List.takeWhile_cons_of_pos (hsound.mpr (Or.inr (by rw [hholds]; rfl))),
            List.filterMap_cons_some hholds]
      · rw [armouredCertificates_of_notMem (by rw [hlabel]; exact hmem), ih hfs,
          List.takeWhile_cons_of_pos (hsound.mpr (Or.inl hmem)),
          List.filterMap_cons_none (certificateOf?_of_notMem hmem)]

theorem armouredCertificates_eq (file : Bytes) :
    armouredCertificates (Armor.outcomes (Armor.pieces file)) = found file := by
  rw [Armor.outcomes_eq]
  exact armouredCertificates_map fun f hf b rest h => Armor.label_of_mem_blocks hf h

/-- The ways in which loading certificates from a file ends. -/
inductive IsLoaded (path file : Bytes) : Except Failure (List Bytes) → Prop
  | empty (hfile : file = []) : IsLoaded path file (.error (.emptyCertificates path))
  | armoured (hfile : file ≠ []) (hfound : found file ≠ []) :
    IsLoaded path file (.ok (found file))
  | plain {c : Certificate} (hfile : file ≠ []) (hfound : found file = [])
    (hread : Certificate.read? file = some c) : IsLoaded path file (.ok [c.raw])
  | nothing (hfile : file ≠ []) (hfound : found file = [])
    (hread : Certificate.read? file = none) :
    IsLoaded path file (.error (.noCertificate path))

/-- No certificate gets lost without a word: there is one for each line that opens a certificate
block, in the order of the blocks, and where that cannot be, there is a failure that names the
file. -/
structure IsFaithful (path file : Bytes) (result : Except Failure (List Bytes)) : Prop where
  complete : ∀ certificates, result = .ok certificates → certificateLines file ≠ [] →
    certificates = readable file ∧ certificates.length = (certificateLines file).length
  noisy : (readable file).length ≠ (certificateLines file).length →
    ∃ f, result = .error f ∧ path <:+: f.message

variable {path file : Bytes} {result : Except Failure (List Bytes)}

theorem IsLoaded.isFaithful_of_length_eq (h : IsLoaded path file result)
    (hlength : (found file).length = (certificateLines file).length) :
    IsFaithful path file result := by
  -- what could be read lies between what is found and the lines
  obtain ⟨lost, hlost⟩ := exists_readable_eq file
  have hle := length_readable_le file
  rw [hlost, List.length_append] at hle
  obtain rfl : lost = [] := List.length_eq_zero_iff.mp (by omega)
  rw [List.append_nil] at hlost
  refine ⟨?_, fun hne => absurd (hlost ▸ hlength) hne⟩
  intro certificates hok hlines
  have hfound : found file ≠ [] := by
    intro hnil
    rw [hnil] at hlength
    exact hlines (List.length_eq_zero_iff.mp hlength.symm)
  cases h with
  | empty => exact nomatch hok
  | armoured =>
    obtain rfl := Except.ok.inj hok
    exact ⟨hlost.symm, hlength⟩
  | plain _ hnil => exact absurd hnil hfound
  | nothing => exact nomatch hok

theorem IsLoaded.length_eq_of_isFaithful (h : IsLoaded path file result)
    (hfound : found file ≠ []) (hfaithful : IsFaithful path file result) :
    (found file).length = (certificateLines file).length := by
  have hlines : certificateLines file ≠ [] := by
    intro hnil
    obtain ⟨lost, hlost⟩ := exists_readable_eq file
    have hle := length_readable_le file
    rw [hlost, hnil, List.length_append, List.length_nil] at hle
    exact hfound (List.length_eq_zero_iff.mp (by omega))
  cases h with
  | empty hfile =>
    subst hfile
    exact absurd (by decide +kernel) hfound
  | armoured => exact (hfaithful.complete _ rfl hlines).2
  | plain _ hnil => exact absurd hnil hfound
  | nothing _ hnil => exact absurd hnil hfound

/-- Where no block gives a certificate, loading fails for the file, unless the file itself is
taken for one. -/
theorem IsLoaded.isFaithful_iff_of_found_eq_nil (h : IsLoaded path file result)
    (hfound : found file = []) (hlines : certificateLines file ≠ []) :
    IsFaithful path file result ↔ ∀ c, Certificate.read? file = some c →
      readable file = [c.raw] ∧ (certificateLines file).length = 1 := by
  cases h with
  | empty hfile =>
    subst hfile
    exact absurd (by decide +kernel) hlines
  | armoured _ hsome => exact absurd hfound hsome
  | plain _ _ hread =>
    constructor
    · intro hfaithful c hc
      obtain rfl := Option.some.inj (hread.symm.trans hc)
      obtain ⟨hreadable, hlength⟩ := hfaithful.complete _ rfl hlines
      exact ⟨hreadable.symm, hlength.symm⟩
    · intro hone
      obtain ⟨hreadable, hlength⟩ := hone _ hread
      refine ⟨?_, fun hne => absurd ?_ hne⟩
      · rintro certificates hok -
        obtain rfl := Except.ok.inj hok
        exact ⟨hreadable.symm, hlength.symm⟩
      · rw [hreadable, hlength]
        rfl
  | nothing _ _ hread =>
    refine iff_of_true ⟨?_, fun _ => ⟨_, rfl, ?_⟩⟩ ?_
    · rintro certificates hok
      exact nomatch hok
    · exact ⟨_, _, rfl⟩
    · intro c hc
      exact nomatch hread.symm.trans hc

end Bundle

open Keystore.Bundle

namespace Shell

variable {s : Session} {path data : Bytes}

theorem isLoaded_run_certificatesIn (hread : s.files.read path = .ok data) :
    ∃ result, (certificatesIn path).run.run s = (result, s) ∧ IsLoaded path data result := by
  unfold certificatesIn
  rw [Computation.run_bind_of_ok (run_read_eq_ok.mpr ⟨hread, rfl⟩)]
  cases data with
  | nil => exact ⟨_, rfl, .empty rfl⟩
  | cons b data =>
    dsimp only
    unfold certificates
    rw [armouredCertificates_eq]
    rcases hfound : found (b :: data) with _ | ⟨c, more⟩
    · rcases hcertificate : Certificate.read? (b :: data) with _ | c
      · exact ⟨_, rfl, .nothing (List.cons_ne_nil _ _) hfound hcertificate⟩
      · exact ⟨_, rfl, .plain (List.cons_ne_nil _ _) hfound hcertificate⟩
    · have hloaded : IsLoaded path (b :: data) (.ok (found (b :: data))) := by
        refine .armoured (List.cons_ne_nil _ _) ?_
        rw [hfound]
        exact List.cons_ne_nil c more
      rw [hfound] at hloaded
      exact ⟨_, rfl, hloaded⟩

/-- Loading gives the certificates in front of the first unsound block, if there are any. That
is faithful to the file where each line that opens a certificate block has its certificate among
them; where they are fewer, the others are lost without a failure. If there are none in front
of the first unsound block, though some line opens a certificate block, loading is faithful
exactly if it fails or that block is the only one and the file itself is its certificate. -/
theorem isFaithful_certificatesIn_cases (hread : s.files.read path = .ok data) :
    ∃ result, (certificatesIn path).run.run s = (result, s) ∧ IsLoaded path data result
      ∧ ((found data).length = (certificateLines data).length → IsFaithful path data result)
      ∧ (found data ≠ [] → (found data).length ≠ (certificateLines data).length →
        ¬ IsFaithful path data result)
      ∧ (found data = [] → certificateLines data ≠ [] →
        (IsFaithful path data result ↔ ∀ c, Certificate.read? data = some c →
          readable data = [c.raw] ∧ (certificateLines data).length = 1)) := by
  obtain ⟨result, hrun, hloaded⟩ := isLoaded_run_certificatesIn hread
  exact ⟨result, hrun, hloaded, hloaded.isFaithful_of_length_eq,
    fun hfound hne hfaithful => hne (hloaded.length_eq_of_isFaithful hfound hfaithful),
    hloaded.isFaithful_iff_of_found_eq_nil⟩

/-! ## A damaged bundle -/

/-- A certificate, and behind it a block that holds a number instead. -/
def brokenBundle : Bytes :=
  [ "-----BEGIN CERTIFICATE-----",
    "MIIBSDCB+6ADAgECAhQ8/LD1VH18Pl2xZUuScjbOF+vRIDAFBgMrZXAwGjEYMBYG",
    "A1UEAwwPRUQyNTUxOS5leGFtcGxlMB4XDTI2MTExOTIxMjMyMFoXDTM2MTExNjIx",
    "MjMyMFowGjEYMBYGA1UEAwwPRUQyNTUxOS5leGFtcGxlMCowBQYDK2VwAyEA4OxH",
    "gYKAaaeE5yUziBl/re9L7q0ome5cINoY2ROlzwWjUzBRMB0GA1UdDgQWBBQH5MD/",
    "Vhi3X2OksMommYxY8bD6uDAfBgNVHSMEGDAWgBQH5MD/Vhi3X2OksMommYxY8bD6",
    "uDAPBgNVHRMBAf8EBTADAQH/MAUGAytlcANBAOB5M0F+hVZvH1HotjAJOhZzyjSs",
    "cOhmzkwbgrgzLwOEVL8POHJcaxvP6USwbGQX/8WnIL7HA+Mwjt4Hzk26Jgg=",
    "-----END CERTIFICATE-----",
    "-----BEGIN CERTIFICATE-----",
    "MAMCAQU=",
    "-----END CERTIFICATE-----" ].flatMap CommandLine.line

theorem length_found_brokenBundle : (found brokenBundle).length = 1 := by
  decide +kernel

theorem found_brokenBundle_ne_nil : found brokenBundle ≠ [] := by
  intro hnil
  have hlength := length_found_brokenBundle
  rw [hnil] at hlength
  exact nomatch hlength

theorem length_certificateLines_brokenBundle : (certificateLines brokenBundle).length = 2 := by
  decide +kernel

/-- A session with that bundle in a file `b`. -/
def bundleSession : Session :=
  { CommandLine.sampleSession with files := ⟨[([Bytes.ascii "b"], .file brokenBundle)], []⟩ }

theorem read_bundleSession : bundleSession.files.read (Bytes.ascii "b") = .ok brokenBundle := rfl

/-- One certificate of two is lost. -/
theorem isFaithful_certificatesIn_cases_brokenBundle :
    ∃ result, (certificatesIn (Bytes.ascii "b")).run.run bundleSession = (result, bundleSession)
      ∧ IsLoaded (Bytes.ascii "b") brokenBundle result
      ∧ ¬ IsFaithful (Bytes.ascii "b") brokenBundle result := by
  obtain ⟨result, hrun, hloaded, -, hlost, -⟩ :=
    isFaithful_certificatesIn_cases read_bundleSession
  refine ⟨result, hrun, hloaded, hlost found_brokenBundle_ne_nil ?_⟩
  rw [length_found_brokenBundle, length_certificateLines_brokenBundle]
  decide

/-- Loading is not faithful to every file. -/
theorem not_isFaithful_certificatesIn :
    ¬ ∀ (s : Session) (path data : Bytes), s.files.read path = .ok data →
      IsFaithful path data ((certificatesIn path).run.run s).1 := by
  intro hall
  obtain ⟨result, hrun, hloaded⟩ := isLoaded_run_certificatesIn read_bundleSession
  have hfaithful := hall bundleSession (Bytes.ascii "b") brokenBundle read_bundleSession
  rw [hrun] at hfaithful
  have hlength := hloaded.length_eq_of_isFaithful found_brokenBundle_ne_nil hfaithful
  rw [length_found_brokenBundle, length_certificateLines_brokenBundle] at hlength
  exact nomatch hlength

end Shell

end Keystore
