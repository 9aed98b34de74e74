import Keystore.Proofs.StoreFile

/-!
# Which entry a refusal is about

Entries are looked at in order, the certificates first, and the first that cannot be
stored ends the writing. `KeyEntry.Refusal` lists the reasons for which a key is
refused, in the order in which they are looked for: each of them excludes those in
front of it. `Contents.FirstRefusal` says of a fault that it is about the first entry
that is refused, and how many keys are in front of that.

The main result is `Contents.toFile_refuses_first`. A refusal has taken the salts of the
keys in front, and nothing for the entry that is refused. Its wording shows the alias, cut
short where that is long (`Fault.quoted_isInfix_message`).
-/

namespace Keystore

open Bytes

variable {passwords : Passwords} {s s' : Supply} {f : Fault}

/-! ## One entry -/

/-- A key that is accepted if a salt is left for it. -/
structure KeyEntry.Accepted (e : KeyEntry) : Prop where
  name : e.name.length ≤ 65535
  key : ∃ secret, e.key = some ⟨.rsa, some secret⟩

/-- The reasons for which a key is refused where some number of random bytes are left,
with the kind of the fault and the field that it is about. -/
inductive KeyEntry.Refusal (e : KeyEntry) (left : Nat) : FaultKind → String → Prop
  | longName (hname : 65535 < e.name.length) : Refusal e left .encodingTooLong "alias"
  | noRsaKey (hname : e.name.length ≤ 65535) (hkey : ∀ k, e.key = some k → k.algorithm ≠ .rsa) :
    Refusal e left .unsupportedKeyAlgorithm "private key"
  | noPrivatePart (hname : e.name.length ≤ 65535) (hkey : e.key = some ⟨.rsa, none⟩) :
    Refusal e left .structureMarshalFailure "private key"
  | noRandomness (haccepted : e.Accepted) (hleft : left < 20) :
    Refusal e left .encryptionFailure "private key"

/-- A certificate that fits is refused for its alias only. -/
theorem CertificateEntry.refused {e : CertificateEntry} (hder : e.der.length < 2 ^ 32)
    (h : e.record.run.run s = (.error f, s')) :
    65535 < e.name.length ∧ f = .aliasTooLong e.name ∧ s' = s := by
  have hways := e.recorded s
  rw [h] at hways
  cases hways with
  | longName hname => exact ⟨hname, rfl, rfl⟩
  | oversized _ hlarge => exact absurd hder (Nat.not_lt.mpr hlarge)

/-- A key that fits is refused for one of the reasons, under its own alias, and takes no
random bytes. -/
theorem KeyEntry.refused {e : KeyEntry} (hfits : e.Fits)
    (h : (e.record passwords).run.run s = (.error f, s')) :
    e.Refusal s.random.length f.kind f.field ∧ f.entry = e.name ∧ s'.random = s.random := by
  have hways := e.recorded passwords s
  rw [h] at hways
  cases hways with
  | longName hname => exact ⟨.longName hname, rfl, rfl⟩
  | unsupported hname hkey => exact ⟨.noRsaKey hname hkey, rfl, rfl⟩
  | noPrivatePart hname hkey => exact ⟨.noPrivatePart hname hkey, rfl, rfl⟩
  | noRandomness secret hname hkey hrandom =>
    exact ⟨.noRandomness ⟨hname, secret, hkey⟩ hrandom, rfl, rfl⟩
  | oversized _ _ _ _ _ hlarge _ => exact absurd hfits hlarge

/-- A fault that concerns an entry shows its alias in its wording. -/
theorem Fault.quoted_isInfix_message (h : f.entry ≠ []) :
    Fault.quoted f.entry <:+: f.message := by
  cases f with
  | aliasTooLong name =>
    refine ⟨ascii "failed to write alias (" ++ tooLong name.length ++ ascii "): ", [], ?_⟩
    simp only [message, entry, List.append_assoc, List.append_nil]
  | unsupportedKey name algorithm =>
    refine ⟨ascii "unsupported private key type " ++ ascii (Key.Algorithm.nameOf algorithm)
      ++ ascii " for ", ascii " (only RSA is supported)", ?_⟩
    simp only [message, entry, List.append_assoc]
  | keyNotStored name cause =>
    refine ⟨ascii "failed to marshal private key for ", ascii ": " ++ cause.message, ?_⟩
    simp only [message, entry, List.append_assoc]
  | _ => exact absurd rfl h

/-! ## All entries -/

namespace Contents

/-- Entries of sizes that a file can hold, aliases apart. -/
structure Fits (c : Contents) : Prop where
  size : c.size < 2 ^ 32
  certificates : ∀ e ∈ c.certificates, e.der.length < 2 ^ 32
  keys : ∀ e ∈ c.keys, e.Fits

/-- Entries that are all accepted, with enough random bytes for the keys. -/
structure Accepted (c : Contents) (available : Nat) : Prop where
  certificates : ∀ e ∈ c.certificates, e.name.length ≤ 65535
  keys : ∀ e ∈ c.keys, e.Accepted
  random : 20 * c.keys.length ≤ available

/-- A fault is about the first entry that is refused, and so many keys are in front of
that entry. -/
inductive FirstRefusal (c : Contents) (available : Nat) (f : Fault) : Nat → Prop
  | certificate (front : List CertificateEntry) (e : CertificateEntry)
    (back : List CertificateEntry) (hsplit : c.certificates = front ++ e :: back)
    (hfront : ∀ d ∈ front, d.name.length ≤ 65535) (hname : 65535 < e.name.length)
    (hkind : f.kind = .encodingTooLong) (hfield : f.field = "alias") (hentry : f.entry = e.name) :
    FirstRefusal c available f 0
  | key (front : List KeyEntry) (e : KeyEntry) (back : List KeyEntry)
    (hcertificates : ∀ d ∈ c.certificates, d.name.length ≤ 65535)
    (hsplit : c.keys = front ++ e :: back) (hfront : ∀ d ∈ front, d.Accepted)
    (hrandom : 20 * front.length ≤ available)
    (hrefusal : e.Refusal (available - 20 * front.length) f.kind f.field)
    (hentry : f.entry = e.name) :
    FirstRefusal c available f front.length

/-- Entries that fit are stored exactly if they are accepted. -/
theorem Fits.storable_iff {c : Contents} (h : c.Fits) (available : Nat) :
    c.Storable ∧ KeyProtector.saltSize * c.keys.length ≤ available ↔ c.Accepted available := by
  constructor
  · rintro ⟨hstorable, hrandom⟩
    exact ⟨fun e he => (hstorable.certificates e he).name,
      fun e he => ⟨(hstorable.keys e he).name, (hstorable.keys e he).key⟩, hrandom⟩
  · intro haccepted
    refine ⟨⟨Nat.le_of_lt_succ h.size, ?_, ?_⟩, haccepted.random⟩
    · intro e he
      exact ⟨haccepted.certificates e he, Nat.le_of_lt_succ (h.certificates e he)⟩
    · intro e he
      exact ⟨(haccepted.keys e he).name, (haccepted.keys e he).key, h.keys e he⟩

/-- A fault of entries that fit is about the first that is refused. The salts of the keys
in front of it are gone. -/
theorem Fits.firstRefusal {c : Contents} (h : c.Fits)
    (hfail : (c.toFile passwords).run.run s = (.error f, s')) :
    ∃ n, c.FirstRefusal s.random.length f n ∧ s'.random = s.random.drop (20 * n) := by
  have hways := c.recorded passwords s
  rw [hfail] at hways
  cases hways with
  | tooMany hsize => exact absurd h.size (Nat.not_lt.mpr hsize)
  | certificate front e back _ s₁ hsplit hfront hfirst =>
    have he : e ∈ c.certificates := by
      rw [hsplit]
      exact List.mem_append_cons_self
    obtain ⟨hname, rfl, rfl⟩ := CertificateEntry.refused (h.certificates e he) hfirst
    exact ⟨0, .certificate front e back hsplit (fun d hd => (hfront d hd).name) hname rfl rfl rfl,
      rfl⟩
  | key front e back _ s₁ hcertificates hsplit hfront hrandom hfirst =>
    have he : e ∈ c.keys := by
      rw [hsplit]
      exact List.mem_append_cons_self
    -- the refused key takes nothing, so only the salts in front of it are gone
    obtain ⟨hrefusal, hentry, hleft⟩ := KeyEntry.refused (h.keys e he) hfirst
    rw [Supply.random_noted, Supply.random_drawn] at hleft
    rw [Supply.random_noted, Supply.random_drawn, List.length_drop] at hrefusal
    refine ⟨front.length, ?_, hleft⟩
    exact .key front e back (fun d hd => (hcertificates d hd).name) hsplit
      (fun d hd => ⟨(hfront d hd).name, (hfront d hd).key⟩) hrandom hrefusal hentry

/-- Entries of sizes that a file can hold become a file exactly if each alias has at most
65535 bytes, each key is an RSA key with a private part, and twenty random bytes are left
for each key. Otherwise writing ends in a fault about the first entry that is refused,
and has taken twenty random bytes for each key in front of that entry. -/
theorem toFile_refuses_first (passwords : Passwords) (c : Contents) (s : Supply) (h : c.Fits) :
    ((∃ file s', (c.toFile passwords).run.run s = (.ok file, s')) ↔ c.Accepted s.random.length)
      ∧ (¬ c.Accepted s.random.length →
          ∃ f s' n, (c.toFile passwords).run.run s = (.error f, s')
            ∧ c.FirstRefusal s.random.length f n ∧ s'.random = s.random.drop (20 * n)) := by
  have hok : (∃ file s', (c.toFile passwords).run.run s = (.ok file, s'))
      ↔ c.Accepted s.random.length := by
    rw [← h.storable_iff]
    constructor
    · rintro ⟨file, s', hrun⟩
      obtain ⟨hstorable, hrandom, -⟩ := run_toFile_eq_ok.mp hrun
      exact ⟨hstorable, hrandom⟩
    · rintro ⟨hstorable, hrandom⟩
      exact ⟨_, _, run_toFile_eq_ok.mpr ⟨hstorable, hrandom, rfl, rfl⟩⟩
  refine ⟨hok, ?_⟩
  intro hrefused
  rcases hrun : (c.toFile passwords).run.run s with ⟨f | file, s'⟩
  · obtain ⟨n, hfirst, hleft⟩ := h.firstRefusal hrun
    exact ⟨f, s', n, rfl, hfirst, hleft⟩
  · exact absurd (hok.mp ⟨file, s', hrun⟩) hrefused

theorem fits_sample : sample.Fits where
  size := by decide
  certificates := List.forall_mem_singleton.mpr (by decide)
  keys := fun e he => (storable_sample.keys e he).fits

/-- Refusal at work: the sample with one random byte too few. -/
theorem toFile_refuses_first_sample :
    ((∃ file s', (sample.toFile Passwords.sample).run.run
        { Supply.sample with random := List.replicate 19 7 } = (.ok file, s'))
        ↔ sample.Accepted 19)
      ∧ ∃ f s' n, (sample.toFile Passwords.sample).run.run
          { Supply.sample with random := List.replicate 19 7 } = (.error f, s')
        ∧ sample.FirstRefusal 19 f n ∧ s'.random = (List.replicate 19 7).drop (20 * n) := by
  have hrefused : ¬ sample.Accepted 19 := fun h => absurd h.random (by decide)
  obtain ⟨hok, herror⟩ := toFile_refuses_first Passwords.sample sample
    { Supply.sample with random := List.replicate 19 7 } fits_sample
  exact ⟨hok, herror hrefused⟩

end Contents

end Keystore
