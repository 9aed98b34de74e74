import Keystore.Listing
import Keystore.Proofs.StoreFile

/-!
# Written files are read back

`Reads r s a` says that the reader `r` takes exactly the bytes `s` off the front of
whatever begins with them, and makes `a` of them. Nothing is asked of the bytes
that follow, so an alias or a certificate may hold any bytes at all, also such as
look like a length or the number of a record: the length in front of it decides
where it ends. Readers in sequence read strings in sequence (`Reads.bind`), and a
reader that is repeated reads as many strings as it is told (`Reads.times`).

With one lemma for each kind of field, the reader of files takes a written file apart
into the entries that went into it. Each record is read as one entry
(`reads_certificateEntry`, `reads_keyEntry`), the records in a row are the entries in a
row, and the header counts them (`read?_bodyLayout`).

A key is listed with its frame, and inside the frame it is hidden under its password.
`KeyEntry.IsListed` says that both come off again and leave the key.
-/

/-! ## What the reader of a file reads -/

namespace Keystore.Listing

variable {α β : Type} {r : Reader α} {g : α → Reader β} {s t : Bytes} {a : α} {b : β}

/-- The reader takes exactly `s` off the front and makes `a` of it. -/
def Reads (r : Reader α) (s : Bytes) (a : α) : Prop :=
  ∀ rest, r.run (s ++ rest) = some (a, rest)

theorem Reads.pure (a : α) : Reads (Pure.pure a) [] a := fun _ => rfl

theorem Reads.bind (hr : Reads r s a) (hg : Reads (g a) t b) : Reads (r >>= g) (s ++ t) b := by
  intro rest
  rw [StateT.run_bind, List.append_assoc, hr]
  exact hg rest

/-- A last step that only puts together what was read. -/
theorem Reads.map (f : α → β) (hr : Reads r s a) :
    Reads (r >>= fun a => Pure.pure (f a)) s (f a) := by
  have h := Reads.bind (g := fun a => Pure.pure (f a)) hr (Reads.pure (f a))
  rwa [List.append_nil] at h

/-! ## Fields -/

theorem reads_take (s : Bytes) : Reads (take s.length) s s := by
  intro rest
  show (if s.length ≤ (s ++ rest).length then
    some ((s ++ rest).take s.length, (s ++ rest).drop s.length) else none) = some (s, rest)
  rw [if_pos (by simp), List.take_left, List.drop_left]

theorem reads_u16 (n : UInt16) : Reads u16 (BigEndian.u16 n) n.toNat := by
  intro rest
  show some ((n >>> 8).toUInt8.toNat * 256 + n.toUInt8.toNat, rest) = some (n.toNat, rest)
  rw [BigEndian.toNat_u16]

theorem reads_u32 (n : UInt32) : Reads u32 (BigEndian.u32 n) n := by
  intro rest
  show some (BigEndian.word (n >>> 24).toUInt8 (n >>> 16).toUInt8 (n >>> 8).toUInt8 n.toUInt8, rest)
    = some (n, rest)
  rw [BigEndian.word_u32]

theorem reads_u64 (n : UInt64) : Reads u64 (BigEndian.u64 n) n := by
  have hlow := Reads.map (fun low => ((n >>> 32).toUInt32.toUInt64 <<< 32) ||| low.toUInt64)
    (reads_u32 n.toUInt32)
  rw [BigEndian.join_halves] at hlow
  exact Reads.bind (g := fun high : UInt32 => u32 >>= fun low : UInt32 =>
    Pure.pure ((high.toUInt64 <<< 32) ||| low.toUInt64)) (reads_u32 (n >>> 32).toUInt32) hlow

theorem reads_text (h : s.length ≤ Field.textLimit) : Reads text (Field.ofText s) s := by
  have hsize : (UInt16.ofNat s.length).toNat = s.length :=
    UInt16.toNat_ofNat_of_lt' (Nat.lt_succ_of_le h)
  have hlength := reads_u16 (UInt16.ofNat s.length)
  rw [hsize] at hlength
  exact Reads.bind hlength (reads_take s)

theorem reads_blob (h : s.length ≤ Field.lengthLimit) : Reads blob (Field.ofBlob s) s := by
  refine Reads.bind (reads_u32 (UInt32.ofNat s.length)) ?_
  rw [Field.toNat_ofNat_length h]
  exact reads_take s

/-! ## Rows -/

/-- What a repeated reader reads, string by string. -/
theorem Reads.times {strings : List Bytes} {as : List α} (h : List.Forall₂ (Reads r) strings as) :
    Reads (times r as.length) strings.flatten as := by
  induction h with
  | nil => exact Reads.pure []
  | cons hfirst _ ih => exact Reads.bind hfirst (Reads.map _ ih)

/-- A file without its trailer is read if its four parts are, one after the other. -/
theorem read?_of_reads {magic version count : UInt32} {strings : List Bytes}
    {entries : List ListedEntry} (hcount : count.toNat = entries.length)
    (h : List.Forall₂ (Reads entry) strings entries) :
    read? (BigEndian.u32 magic ++ BigEndian.u32 version ++ BigEndian.u32 count ++ strings.flatten)
      = some { magic, version, count, entries } := by
  have hentries := Reads.times h
  rw [← hcount] at hentries
  have hread : Reads contents (BigEndian.u32 magic ++ (BigEndian.u32 version
      ++ (BigEndian.u32 count ++ strings.flatten))) { magic, version, count, entries } :=
    Reads.bind (reads_u32 magic) (Reads.bind (reads_u32 version) (Reads.bind (reads_u32 count)
      (Reads.map _ hentries)))
  have hall := hread []
  rw [List.append_nil] at hall
  rw [read?, List.append_assoc, List.append_assoc, hall]

end Keystore.Listing

namespace Keystore

/-! ## What entries are listed as -/

/-- A certificate behind its type, as it is listed. -/
def Record.typed (der : Bytes) : TypedCertificate := ⟨Bytes.ascii "X.509", der⟩

/-- The milliseconds by which a record is stamped. -/
def Instant.stamp (t now : Instant) : UInt64 := (t.or now).millis.toUInt64

/-- What a certificate is listed as. -/
def CertificateEntry.listed (now : Instant) (e : CertificateEntry) : ListedEntry :=
  .certificate e.name (e.time.stamp now) (Record.typed e.der)

/-- What a key is listed as, from the salt. -/
def KeyEntry.listed (passwords : Passwords) (now : Instant) (salt : Bytes) (e : KeyEntry) :
    ListedEntry :=
  .key e.name (e.time.stamp now) (Key.stored (passwords.forKey e.name) salt e.secret)
    (e.chain.map Record.typed)

/-- What some keys are listed as. -/
def KeyEntry.allListed (passwords : Passwords) (now : Instant) :
    Bytes → List KeyEntry → List ListedEntry :=
  salted (KeyEntry.listed passwords now)

namespace Listing

variable {passwords : Passwords} {now : Instant}

/-! ## Records -/

theorem reads_certificate {der : Bytes} (h : der.length ≤ Field.lengthLimit) :
    Reads certificate (Record.certificatePart der) (Record.typed der) :=
  Reads.bind (reads_text (by decide)) (Reads.map _ (reads_blob h))

theorem reads_chain {chain : List Bytes} (h : ∀ der ∈ chain, der.length ≤ Field.lengthLimit) :
    List.Forall₂ (Reads certificate) (chain.map Record.certificatePart)
      (chain.map Record.typed) := by
  rw [List.forall₂_map_left_iff, List.forall₂_map_right_iff, List.forall₂_same]
  intro der hder
  exact reads_certificate (h der hder)

/-- The record of a certificate is read as the certificate. -/
theorem reads_certificateEntry {e : CertificateEntry} (h : e.Storable) :
    Reads entry (e.layout now) (e.listed now) := by
  rw [CertificateEntry.layout, List.append_assoc, List.append_assoc]
  refine Reads.bind (reads_u32 _) (Reads.bind (reads_text h.name) (Reads.bind (reads_u64 _) ?_))
  rw [if_pos rfl]
  exact Reads.map _ (reads_certificate h.der)

/-- The record of a key is read as the key, with its chain. -/
theorem reads_keyEntry {e : KeyEntry} (h : e.Storable) {salt : Bytes}
    (hsalt : salt.length = KeyProtector.saltSize) :
    Reads entry (e.layout passwords now salt) (e.listed passwords now salt) := by
  have hblob : (Key.stored (passwords.forKey e.name) salt e.secret).length ≤ Field.lengthLimit := by
    obtain ⟨secret, hkey⟩ := h.key
    rw [Key.length_stored hsalt, KeyEntry.secret_eq hkey]
    exact h.fits.key _ secret hkey rfl
  -- the reader repeats itself as often as the number in front of the chain says
  have hrow := Reads.times (reads_chain h.fits.chain.2)
  rw [List.length_map, ← Field.toNat_ofNat_length h.fits.chain.1] at hrow
  rw [KeyEntry.layout, List.append_assoc, List.append_assoc, List.append_assoc]
  refine Reads.bind (reads_u32 _) (Reads.bind (reads_text h.name) (Reads.bind (reads_u64 _) ?_))
  rw [if_neg (by decide), if_pos rfl]
  exact Reads.bind (reads_blob hblob) (Reads.bind (reads_u32 _) (Reads.map _ hrow))

/-! ## Files -/

/-- What is in front of a file's trailer is read as the entries, to the last byte. -/
theorem read?_bodyLayout {c : Contents} (h : c.Storable) {random : Bytes}
    (hrandom : KeyProtector.saltSize * c.keys.length ≤ random.length) :
    read? (c.bodyLayout passwords now random) = some
      { magic := Header.magicNumber
        version := Header.formatVersion
        count := UInt32.ofNat c.size
        entries := c.certificates.map (CertificateEntry.listed now)
          ++ KeyEntry.allListed passwords now random c.keys } := by
  have hcertificates : List.Forall₂ (Reads entry)
      (c.certificates.map (CertificateEntry.layout now))
      (c.certificates.map (CertificateEntry.listed now)) := by
    rw [List.forall₂_map_left_iff, List.forall₂_map_right_iff, List.forall₂_same]
    intro e he
    exact reads_certificateEntry (h.certificates e he)
  have hkeys : List.Forall₂ (Reads entry) (KeyEntry.layouts passwords now random c.keys)
      (KeyEntry.allListed passwords now random c.keys) := by
    refine KeyEntry.forall₂_salted ?_ hrandom
    intro e he salt hsalt
    exact reads_keyEntry (h.keys e he) hsalt
  rw [Contents.bodyLayout, Header.bytes, List.append_assoc, ← List.flatten_append]
  refine read?_of_reads ?_ (List.rel_append hcertificates hkeys)
  rw [Field.toNat_ofNat_length h.size, List.length_append, List.length_map, KeyEntry.allListed,
    KeyEntry.length_salted]
  rfl

end Listing

/-! ## Written files -/

theorem Contents.length_layout_sub (passwords : Passwords) (now : Instant) (random : Bytes)
    (c : Contents) : (c.layout passwords now random).length - 20
      = (c.bodyLayout passwords now random).length := by
  rw [Contents.layout, List.length_append, Trailer.make, Sha1.length_digest]
  exact Nat.add_sub_cancel _ _

/-- The part of a file in front of its last twenty bytes is what comes before the
trailer. -/
theorem Contents.take_layout (passwords : Passwords) (now : Instant) (random : Bytes)
    (c : Contents) :
    (c.layout passwords now random).take ((c.layout passwords now random).length - 20)
      = c.bodyLayout passwords now random := by
  rw [Contents.length_layout_sub, Contents.layout, List.take_left]

/-- The last twenty bytes are the trailer. -/
theorem Contents.drop_layout (passwords : Passwords) (now : Instant) (random : Bytes)
    (c : Contents) :
    (c.layout passwords now random).drop ((c.layout passwords now random).length - 20)
      = Trailer.make passwords.store (c.bodyLayout passwords now random) := by
  rw [Contents.length_layout_sub, Contents.layout, List.drop_left]

/-- How a key is listed: with its alias, its moment and its chain, and with bytes that
give the key when the outer frame, the password and the inner frame are taken off. -/
inductive KeyEntry.IsListed (passwords : Passwords) (now : Instant) (e : KeyEntry) :
    ListedEntry → Prop
  | intro {blob hidden info secret : Bytes}
    (hframe : Key.protectedContent? blob = some hidden)
    (hpassword : KeyProtector.unprotect (passwords.forKey e.name) hidden = .ok info)
    (hinfo : Key.privateContent? info = some secret)
    (hkey : e.key = some ⟨.rsa, some secret⟩) :
    IsListed passwords now e (.key e.name (e.time.stamp now) blob (e.chain.map Record.typed))

/-- A stored key comes out of its frames. -/
theorem KeyEntry.isListed_listed (passwords : Passwords) (now : Instant) {e : KeyEntry}
    (h : e.Storable) {salt : Bytes} (hsalt : salt.length = KeyProtector.saltSize) :
    e.IsListed passwords now (e.listed passwords now salt) := by
  obtain ⟨secret, hkey⟩ := h.key
  have hsecret : e.secret = secret := KeyEntry.secret_eq hkey
  -- the outer frame is the longest of the three, and a key that fits has a short one
  have hstored : (Key.stored (passwords.forKey e.name) salt secret).length < Der.lengthBound := by
    rw [Key.length_stored hsalt]
    exact Nat.lt_of_le_of_lt (h.fits.key _ secret hkey rfl) (by decide)
  have hinner : (Key.privateInfo .rsa secret).length < Der.lengthBound := by
    have hhidden := Key.le_length_protectedInfo
      (KeyProtector.hide (Utf16.ofText (passwords.forKey e.name)) salt (Key.privateInfo .rsa secret))
    rw [KeyProtector.length_hide hsalt] at hhidden
    exact Nat.lt_of_le_of_lt (Nat.le_trans (Nat.le_add_right _ _) hhidden) hstored
  rw [KeyEntry.listed, hsecret]
  exact .intro (Key.protectedContent?_protectedInfo hstored)
    (KeyProtector.unprotect_hide _ hsalt _) (Key.privateContent?_privateInfo hinner) hkey

/-- A file is read back as its entries, from which the keys are recovered. -/
theorem Contents.exists_listing (passwords : Passwords) (now : Instant) {c : Contents}
    (h : c.Storable) {random : Bytes}
    (hrandom : KeyProtector.saltSize * c.keys.length ≤ random.length) :
    ∃ keys : List ListedEntry,
      Listing.read? ((c.layout passwords now random).take
          ((c.layout passwords now random).length - 20)) = some
        { magic := 0xFEEDFEED
          version := 2
          count := UInt32.ofNat c.size
          entries := c.certificates.map (CertificateEntry.listed now) ++ keys }
      ∧ List.Forall₂ (KeyEntry.IsListed passwords now) c.keys keys := by
  refine ⟨KeyEntry.allListed passwords now random c.keys, ?_, ?_⟩
  · rw [Contents.take_layout]
    exact Listing.read?_bodyLayout h hrandom
  · have hkeys : List.Forall₂ (KeyEntry.IsListed passwords now)
        (KeyEntry.salted (fun _ e => e) random c.keys)
        (KeyEntry.salted (KeyEntry.listed passwords now) random c.keys) := by
      refine KeyEntry.forall₂_salted ?_ hrandom
      intro e he salt hsalt
      exact KeyEntry.isListed_listed passwords now (h.keys e he) hsalt
    rw [KeyEntry.salted_id] at hkeys
    exact hkeys

/-- A written file is read back, to the last byte in front of the trailer. The entries
are the certificates in order, each with its alias, its moment and its bytes, and then
the keys in order, each with its alias, its moment, its chain, and a stored form from
which its password recovers it. -/
theorem Contents.read?_toFile {passwords : Passwords} {c : Contents} {s s' : Supply} {file : Bytes}
    (h : (c.toFile passwords).run.run s = (.ok file, s')) :
    ∃ keys : List ListedEntry,
      Listing.read? (file.take (file.length - 20)) = some
        { magic := 0xFEEDFEED
          version := 2
          count := UInt32.ofNat c.size
          entries := c.certificates.map (CertificateEntry.listed s.now) ++ keys }
      ∧ (UInt32.ofNat c.size).toNat = c.certificates.length + c.keys.length
      ∧ List.Forall₂ (KeyEntry.IsListed passwords s.now) c.keys keys := by
  obtain ⟨hstorable, hrandom, rfl, -⟩ := Contents.run_toFile_eq_ok.mp h
  obtain ⟨keys, hread, hkeys⟩ := Contents.exists_listing passwords s.now hstorable hrandom
  exact ⟨keys, hread, Field.toNat_ofNat_length hstorable.size, hkeys⟩

/-- Reading back at work on the sample. -/
theorem Contents.read?_toFile_sample :
    ∃ file s', (Contents.sample.toFile Passwords.sample).run.run Supply.sample = (.ok file, s')
      ∧ ∃ keys,
        Listing.read? (file.take (file.length - 20)) = some
          { magic := 0xFEEDFEED
            version := 2
            count := 2
            entries := .certificate [0, 0, 0, 2] 1 ⟨Bytes.ascii "X.509", [0x30, 0]⟩ :: keys }
        ∧ (UInt32.ofNat 2).toNat = 2
        ∧ List.Forall₂ (KeyEntry.IsListed Passwords.sample Supply.sample.now)
            Contents.sample.keys keys := by
  have hrun : (Contents.sample.toFile Passwords.sample).run.run Supply.sample = (.ok _, _) :=
    Contents.run_toFile_eq_ok.mpr ⟨Contents.storable_sample, by decide, rfl, rfl⟩
  exact ⟨_, _, hrun, Contents.read?_toFile hrun⟩

end Keystore
