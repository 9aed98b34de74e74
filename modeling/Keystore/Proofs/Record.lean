import Keystore.Proofs.Field
import Keystore.Proofs.KeyFrame
import Keystore.Proofs.KeyProtector
import Keystore.Proofs.Computation
import Keystore.StoreFile

/-!
# How the record of an entry comes about

Writing a record can end in a few ways, and this module lists them: for each kind
of entry an inductive relation (`CertificateEntry.Recorded`, `KeyEntry.Recorded`)
has one constructor for each way, with the condition under which it is taken, the
bytes or the fault, and the supply afterwards. `CertificateEntry.recorded` and
`KeyEntry.recorded` say that writing always ends in one of them, so whatever is to
be known about a record is a case analysis.

The bytes of a record that came about are its `layout`: all fields in a row. For a
key they depend on the salt, which is the next twenty random bytes.
-/

namespace Keystore

/-- A moment, or another one if it is not given. -/
def Instant.or (t now : Instant) : Instant := if t = .unset then now else t

namespace Record

/-- The notice for an entry that gets the current time. -/
def clockNotices (name : Bytes) (time : Instant) : List Notice :=
  if time = .unset then [.clockUsed name] else []

/-- The notice for a key that comes without certificates. -/
def chainNotices (e : KeyEntry) : List Notice := if e.chain = [] then [.emptyChain e.name] else []

/-- A certificate behind its type. -/
def certificatePart (der : Bytes) : Bytes := Field.ofText certificateType ++ Field.ofBlob der

/-- A chain behind its length. -/
def chainPart (chain : List Bytes) : Bytes :=
  Field.ofLength chain.length ++ (chain.map certificatePart).flatten

/-- The certificates of a chain, and their number, fit their fields. -/
def ChainFits (chain : List Bytes) : Prop :=
  chain.length ≤ Field.lengthLimit ∧ ∀ der ∈ chain, der.length ≤ Field.lengthLimit

instance (chain : List Bytes) : Decidable (ChainFits chain) :=
  inferInstanceAs (Decidable (_ ∧ _))

/-! ## Fields of records -/

theorem nameField_of_le {name : Bytes} (h : name.length ≤ Field.textLimit) :
    nameField name = .ok (Field.ofText name) := by
  rw [nameField, Field.text_eq, if_pos h]
  rfl

theorem nameField_of_lt {name : Bytes} (h : Field.textLimit < name.length) :
    nameField name = .error (.aliasTooLong name) := by
  rw [nameField, Field.text_eq, if_neg (Nat.not_le.mpr h)]
  rfl

theorem run_timeField (name : Bytes) (time : Instant) (s : Supply) :
    (timeField name time).run.run s
      = (.ok (Field.time (time.or s.now)), s.noted (clockNotices name time)) := by
  rw [timeField, clockNotices, Instant.or]
  by_cases h : time = .unset
  · rw [if_pos h, if_pos h, if_pos h]
    rfl
  · rw [if_neg h, if_neg h, if_neg h, Supply.noted_nil]
    rfl

theorem certificateField_eq (der : Bytes) :
    certificateField der = if der.length ≤ Field.lengthLimit then .ok (certificatePart der)
      else .error (.lengthTooLarge der.length) := by
  have htype : Field.text certificateType = .ok (Field.ofText certificateType) := by
    rw [Field.text_eq, if_pos (by decide)]
  rw [certificateField, htype, Field.blob_eq]
  by_cases h : der.length ≤ Field.lengthLimit
  · rw [if_pos h, if_pos h]
    rfl
  · rw [if_neg h, if_neg h]
    rfl

theorem mapM_certificateField_of_fits {chain : List Bytes}
    (h : ∀ der ∈ chain, der.length ≤ Field.lengthLimit) :
    chain.mapM certificateField = .ok (chain.map certificatePart) := by
  induction chain with
  | nil => rfl
  | cons der chain ih =>
    rw [List.mapM_cons, certificateField_eq, if_pos (h der List.mem_cons_self),
      ih fun d hd => h d (List.mem_cons_of_mem _ hd)]
    rfl

theorem mapM_certificateField_of_large {chain : List Bytes}
    (h : ¬ ∀ der ∈ chain, der.length ≤ Field.lengthLimit) :
    ∃ n, chain.mapM certificateField = .error (.lengthTooLarge n) := by
  induction chain with
  | nil => exact absurd (fun _ hd => nomatch hd) h
  | cons der chain ih =>
    rw [List.mapM_cons, certificateField_eq]
    by_cases hder : der.length ≤ Field.lengthLimit
    · have hchain : ¬ ∀ d ∈ chain, d.length ≤ Field.lengthLimit := by
        intro hall
        apply h
        intro d hd
        rcases List.mem_cons.mp hd with rfl | hd
        · exact hder
        · exact hall d hd
      obtain ⟨n, hn⟩ := ih hchain
      rw [if_pos hder, hn]
      exact ⟨n, rfl⟩
    · rw [if_neg hder]
      exact ⟨_, rfl⟩

theorem chainField_of_fits {chain : List Bytes} (h : ChainFits chain) :
    chainField chain = .ok (chainPart chain) := by
  rw [chainField, Field.length_eq, if_pos h.1, mapM_certificateField_of_fits h.2]
  rfl

theorem chainField_of_large {chain : List Bytes} (h : ¬ ChainFits chain) :
    ∃ n, chainField chain = .error (.lengthTooLarge n) := by
  rw [chainField, Field.length_eq]
  by_cases hcount : chain.length ≤ Field.lengthLimit
  · obtain ⟨n, hn⟩ := mapM_certificateField_of_large fun hall => h ⟨hcount, hall⟩
    rw [if_pos hcount, hn]
    exact ⟨n, rfl⟩
  · rw [if_neg hcount]
    exact ⟨_, rfl⟩

end Record

/-! ## Certificates -/

/-- A certificate that fits its record, with its alias. -/
structure CertificateEntry.Storable (e : CertificateEntry) : Prop where
  name : e.name.length ≤ Field.textLimit
  der : e.der.length ≤ Field.lengthLimit

/-- The bytes of a certificate's record. -/
def CertificateEntry.layout (now : Instant) (e : CertificateEntry) : Bytes :=
  BigEndian.u32 Record.certificateTag ++ Field.ofText e.name ++ Field.time (e.time.or now)
    ++ Record.certificatePart e.der

/-- The ways in which writing a certificate's record ends. -/
inductive CertificateEntry.Recorded (e : CertificateEntry) (s : Supply) :
    Except Fault Bytes × Supply → Prop
  | written (hname : e.name.length ≤ Field.textLimit) (hder : e.der.length ≤ Field.lengthLimit) :
    Recorded e s (.ok (e.layout s.now), s.noted (Record.clockNotices e.name e.time))
  | longName (hname : Field.textLimit < e.name.length) :
    Recorded e s (.error (.aliasTooLong e.name), s)
  | oversized (hname : e.name.length ≤ Field.textLimit)
    (hder : Field.lengthLimit < e.der.length) :
    Recorded e s
      (.error (.lengthTooLarge e.der.length), s.noted (Record.clockNotices e.name e.time))

/-- Writing a certificate's record ends in one of these ways. -/
theorem CertificateEntry.recorded (e : CertificateEntry) (s : Supply) :
    e.Recorded s (e.record.run.run s) := by
  rw [CertificateEntry.record]
  by_cases hname : e.name.length ≤ Field.textLimit
  · rw [Computation.run_liftM_bind_of_ok (Record.nameField_of_le hname),
      Computation.run_bind_of_ok (Record.run_timeField e.name e.time s)]
    have hfield := Record.certificateField_eq e.der
    by_cases hder : e.der.length ≤ Field.lengthLimit
    · rw [if_pos hder] at hfield
      rw [Computation.run_liftM_bind_of_ok hfield]
      exact .written hname hder
    · rw [if_neg hder] at hfield
      rw [Computation.run_liftM_bind_of_error hfield]
      exact .oversized hname (Nat.lt_of_not_le hder)
  · have hlong := Nat.lt_of_not_le hname
    rw [Computation.run_liftM_bind_of_error (Record.nameField_of_lt hlong)]
    exact .longName hlong

/-- A certificate's record comes about exactly if alias and certificate fit, and is then
the layout. -/
theorem CertificateEntry.run_record_eq_ok {e : CertificateEntry} {s s' : Supply} {r : Bytes} :
    e.record.run.run s = (.ok r, s') ↔
      e.Storable ∧ r = e.layout s.now ∧ s' = s.noted (Record.clockNotices e.name e.time) := by
  have hways := e.recorded s
  constructor
  · intro h
    rw [h] at hways
    cases hways with
    | written hname hder => exact ⟨⟨hname, hder⟩, rfl, rfl⟩
  · rintro ⟨hstorable, rfl, rfl⟩
    generalize e.record.run.run s = out at hways ⊢
    cases hways with
    | written => rfl
    | longName hname => exact absurd hstorable.name (Nat.not_le.mpr hname)
    | oversized _ hder => exact absurd hstorable.der (Nat.not_le.mpr hder)

/-! ## Keys -/

/-- The number of bytes that a stored key takes up. Neither password nor salt matter. -/
def Key.storedSize (secret : Bytes) : Nat :=
  (Key.protectedInfo (List.replicate
    ((Key.privateInfo .rsa secret).length + (KeyProtector.saltSize + Sha1.size)) 0)).length

/-- A protected key in its frame, from the salt and the key's own encoding. -/
def Key.stored (password salt secret : Bytes) : Bytes :=
  Key.protectedInfo
    (KeyProtector.hide (Utf16.ofText password) salt (Key.privateInfo .rsa secret))

theorem Key.length_stored {password salt secret : Bytes} (h : salt.length = KeyProtector.saltSize) :
    (Key.stored password salt secret).length = Key.storedSize secret := by
  apply Key.length_protectedInfo_congr
  rw [KeyProtector.length_hide h, List.length_replicate]

/-- The private part of an entry's key; nothing if it has none. -/
def KeyEntry.secret (e : KeyEntry) : Bytes := (e.key.bind Key.secret).getD []

theorem KeyEntry.secret_eq {e : KeyEntry} {algorithm : Key.Algorithm} {secret : Bytes}
    (h : e.key = some ⟨algorithm, some secret⟩) : e.secret = secret := by
  rw [KeyEntry.secret, h]
  rfl

/-- What a key and its chain hold fits the fields for it. -/
structure KeyEntry.Fits (e : KeyEntry) : Prop where
  key : ∀ k secret, e.key = some k → k.secret = some secret →
    Key.storedSize secret ≤ Field.lengthLimit
  chain : Record.ChainFits e.chain

/-- An RSA key with a private part that fits its record, with its alias and its chain. -/
structure KeyEntry.Storable (e : KeyEntry) : Prop where
  name : e.name.length ≤ Field.textLimit
  key : ∃ secret, e.key = some ⟨.rsa, some secret⟩
  fits : e.Fits

/-- The notices that a key's record gives. -/
def KeyEntry.notices (e : KeyEntry) : List Notice :=
  Record.clockNotices e.name e.time ++ Record.chainNotices e

/-- The bytes of a key's record. -/
def KeyEntry.layout (passwords : Passwords) (now : Instant) (salt : Bytes) (e : KeyEntry) : Bytes :=
  BigEndian.u32 Record.keyTag ++ Field.ofText e.name ++ Field.time (e.time.or now)
    ++ Field.ofBlob (Key.stored (passwords.forKey e.name) salt e.secret)
    ++ Record.chainPart e.chain

/-- The ways in which writing a key's record ends. -/
inductive KeyEntry.Recorded (passwords : Passwords) (e : KeyEntry) (s : Supply) :
    Except Fault Bytes × Supply → Prop
  | written (secret : Bytes) (hname : e.name.length ≤ Field.textLimit)
    (hkey : e.key = some ⟨.rsa, some secret⟩) (hrandom : KeyProtector.saltSize ≤ s.random.length)
    (hfits : e.Fits) :
    Recorded passwords e s
      (.ok (e.layout passwords s.now (s.random.take KeyProtector.saltSize)),
        (s.drawn KeyProtector.saltSize).noted e.notices)
  | longName (hname : Field.textLimit < e.name.length) :
    Recorded passwords e s (.error (.aliasTooLong e.name), s)
  | unsupported (hname : e.name.length ≤ Field.textLimit)
    (hkey : ∀ k, e.key = some k → k.algorithm ≠ .rsa) :
    Recorded passwords e s
      (.error (.unsupportedKey e.name (e.key.map Key.algorithm)),
        s.noted (Record.clockNotices e.name e.time))
  | noPrivatePart (hname : e.name.length ≤ Field.textLimit) (hkey : e.key = some ⟨.rsa, none⟩) :
    Recorded passwords e s
      (.error (.keyNotStored e.name .noPrivatePart), s.noted (Record.clockNotices e.name e.time))
  | noRandomness (secret : Bytes) (hname : e.name.length ≤ Field.textLimit)
    (hkey : e.key = some ⟨.rsa, some secret⟩) (hrandom : s.random.length < KeyProtector.saltSize) :
    Recorded passwords e s
      (.error (.keyNotStored e.name (.noRandomness s.explains)),
        s.noted (Record.clockNotices e.name e.time))
  | oversized (secret : Bytes) (f : Fault) (hname : e.name.length ≤ Field.textLimit)
    (hkey : e.key = some ⟨.rsa, some secret⟩) (hrandom : KeyProtector.saltSize ≤ s.random.length)
    (hfits : ¬ e.Fits) (hkind : f.kind = .encodingTooLong) :
    Recorded passwords e s
      (.error f, (s.noted (Record.clockNotices e.name e.time)).drawn KeyProtector.saltSize)

namespace Record

/-- Protecting data takes a salt. -/
theorem run_protectData_of_le (password plain : Bytes) {s : Supply}
    (h : KeyProtector.saltSize ≤ s.random.length) :
    (protectData password plain).run.run s
      = (.ok (KeyProtector.hide (Utf16.ofText password)
          (s.random.take KeyProtector.saltSize) plain), s.drawn KeyProtector.saltSize) := by
  have hsalt : (s.random.take KeyProtector.saltSize).length = KeyProtector.saltSize := by
    rw [List.length_take]
    omega
  rw [protectData, Computation.run_bind_of_ok (Task.run_salt_of_le h), Computation.run_liftM,
    KeyProtector.protect_eq_ok_iff.mpr ⟨hsalt, rfl⟩]

theorem run_protectData_of_lt (password plain : Bytes) {s : Supply}
    (h : s.random.length < KeyProtector.saltSize) :
    (protectData password plain).run.run s = (.error (.noRandomness s.explains), s) := by
  rw [protectData, Computation.run_bind_of_error (Task.run_salt_of_lt h)]

/-- The key of an entry that is no RSA key, or is missing, is refused. -/
theorem run_keyField_of_unsupported (passwords : Passwords) {e : KeyEntry}
    (h : ∀ k, e.key = some k → k.algorithm ≠ .rsa) (s : Supply) :
    (keyField passwords e).run.run s
      = (.error (.unsupportedKey e.name (e.key.map Key.algorithm)), s) := by
  have hnone : (e.key.bind fun key => key.storable?.map fun kind => (key, kind)) = none := by
    cases hkey : e.key with
    | none => rfl
    | some k =>
      have hrsa := h k hkey
      rw [Option.bind_some, Key.storable?]
      cases halg : k.algorithm <;> first | rfl | exact absurd halg hrsa
  rw [keyField, hnone]
  rfl

/-- The key of an entry that is an RSA key is framed and protected. -/
theorem run_keyField_of_rsa (passwords : Passwords) {e : KeyEntry} {secret : Option Bytes}
    (h : e.key = some ⟨.rsa, secret⟩) (s : Supply) :
    (keyField passwords e).run.run s
      = (Task.blame (.keyNotStored e.name)
          (protectedField (passwords.forKey e.name) .rsa ⟨.rsa, secret⟩)).run.run s := by
  rw [keyField, h]
  rfl

/-- A key without a private part cannot be framed. -/
theorem run_protectedField_of_none (password : Bytes) (s : Supply) :
    (protectedField password .rsa ⟨.rsa, none⟩).run.run s = (.error .noPrivatePart, s) := rfl

theorem run_protectedField_of_lt (password secret : Bytes) {s : Supply}
    (h : s.random.length < KeyProtector.saltSize) :
    (protectedField password .rsa ⟨.rsa, some secret⟩).run.run s
      = (.error (.noRandomness s.explains), s) := by
  have hframe : Key.frame .rsa ⟨.rsa, some secret⟩ = .ok (Key.privateInfo .rsa secret) := rfl
  rw [protectedField, Computation.run_liftM_bind_of_ok hframe,
    Computation.run_bind_of_error (run_protectData_of_lt password _ h)]

theorem run_protectedField_of_le (password secret : Bytes) {s : Supply}
    (h : KeyProtector.saltSize ≤ s.random.length) :
    (protectedField password .rsa ⟨.rsa, some secret⟩).run.run s
      = (Field.blob (Key.stored password (s.random.take KeyProtector.saltSize) secret),
          s.drawn KeyProtector.saltSize) := by
  have hframe : Key.frame .rsa ⟨.rsa, some secret⟩ = .ok (Key.privateInfo .rsa secret) := rfl
  rw [protectedField, Computation.run_liftM_bind_of_ok hframe,
    Computation.run_bind_of_ok (run_protectData_of_le password _ h)]
  rfl

/-- What follows the notice for an empty chain goes on from the notices of the chain. -/
theorem run_noteChain (e : KeyEntry) (next : Unit → Task Bytes) (s : Supply) :
    (if e.chain = [] then Task.note (.emptyChain e.name) >>= next else next ()).run.run s
      = (next ()).run.run (s.noted (chainNotices e)) := by
  rw [chainNotices]
  by_cases h : e.chain = []
  · rw [if_pos h, if_pos h, Computation.run_bind_of_ok (Task.run_note _ s)]
  · rw [if_neg h, if_neg h, Supply.noted_nil]

/-- An empty chain fits. -/
theorem chainNotices_of_large {e : KeyEntry} (h : ¬ ChainFits e.chain) : chainNotices e = [] := by
  rw [chainNotices, if_neg]
  intro hnil
  rw [hnil] at h
  exact h ⟨Nat.zero_le _, fun _ hd => nomatch hd⟩

end Record

/-- Writing a key's record ends in one of these ways. -/
theorem KeyEntry.recorded (passwords : Passwords) (e : KeyEntry) (s : Supply) :
    e.Recorded passwords s ((e.record passwords).run.run s) := by
  rw [KeyEntry.record]
  by_cases hname : e.name.length ≤ Field.textLimit
  · rw [Computation.run_liftM_bind_of_ok (Record.nameField_of_le hname),
      Computation.run_bind_of_ok (Record.run_timeField e.name e.time s)]
    -- a missing key is refused like one of another algorithm
    by_cases hrsa : ∃ k, e.key = some k ∧ k.algorithm = .rsa
    · obtain ⟨⟨_, secret⟩, hkey, rfl⟩ := hrsa
      have hfield := Record.run_keyField_of_rsa passwords hkey
        (s.noted (Record.clockNotices e.name e.time))
      rw [Task.run_blame] at hfield
      cases secret with
      | none =>
        rw [Record.run_protectedField_of_none] at hfield
        rw [Computation.run_bind_of_error hfield]
        exact .noPrivatePart hname hkey
      | some secret =>
        -- a salt is taken before any size is looked at
        by_cases hrandom : KeyProtector.saltSize ≤ s.random.length
        · rw [Record.run_protectedField_of_le (s := s.noted _) _ _ hrandom] at hfield
          -- whether the key fits depends neither on its password nor on the salt
          have hsize : (Key.stored (passwords.forKey e.name)
              (s.random.take KeyProtector.saltSize) secret).length = Key.storedSize secret := by
            apply Key.length_stored
            rw [List.length_take]
            omega
          rw [Supply.random_noted, Field.blob_eq, hsize] at hfield
          by_cases hstored : Key.storedSize secret ≤ Field.lengthLimit
          · rw [if_pos hstored] at hfield
            rw [Computation.run_bind_of_ok hfield]
            dsimp only
            rw [Record.run_noteChain e]
            by_cases hchain : Record.ChainFits e.chain
            · rw [Computation.run_liftM_bind_of_ok (Record.chainField_of_fits hchain)]
              have hfits : e.Fits := by
                refine ⟨fun k secret' hk hs => ?_, hchain⟩
                obtain rfl := Option.some.inj (hkey.symm.trans hk)
                obtain rfl := Option.some.inj hs
                exact hstored
              have hwritten : e.Recorded passwords s _ := .written secret hname hkey hrandom hfits
              -- the layout goes by the secret that the entry has
              rw [KeyEntry.layout, KeyEntry.secret_eq hkey, KeyEntry.notices, ← Supply.noted_noted]
                at hwritten
              exact hwritten
            · obtain ⟨n, hn⟩ := Record.chainField_of_large hchain
              rw [Computation.run_liftM_bind_of_error hn, Record.chainNotices_of_large hchain,
                Supply.noted_nil]
              exact .oversized secret _ hname hkey hrandom (fun h => hchain h.chain) rfl
          · rw [if_neg hstored] at hfield
            rw [Computation.run_bind_of_error hfield]
            exact .oversized secret _ hname hkey hrandom
              (fun h => hstored (h.key _ secret hkey rfl)) rfl
        · have hdry := Nat.lt_of_not_le hrandom
          rw [Record.run_protectedField_of_lt (s := s.noted _) _ _ hdry] at hfield
          rw [Computation.run_bind_of_error hfield]
          exact .noRandomness secret hname hkey hdry
    · have hother : ∀ k, e.key = some k → k.algorithm ≠ .rsa :=
        fun k hk halg => hrsa ⟨k, hk, halg⟩
      rw [Computation.run_bind_of_error (Record.run_keyField_of_unsupported passwords hother _)]
      exact .unsupported hname hother
  · have hlong := Nat.lt_of_not_le hname
    rw [Computation.run_liftM_bind_of_error (Record.nameField_of_lt hlong)]
    exact .longName hlong

/-- A key's record comes about exactly if everything fits, the key is an RSA key with a
private part, and a salt is left. It takes that salt. -/
theorem KeyEntry.run_record_eq_ok {passwords : Passwords} {e : KeyEntry} {s s' : Supply}
    {r : Bytes} :
    (e.record passwords).run.run s = (.ok r, s') ↔
      e.Storable ∧ KeyProtector.saltSize ≤ s.random.length
        ∧ r = e.layout passwords s.now (s.random.take KeyProtector.saltSize)
        ∧ s' = (s.drawn KeyProtector.saltSize).noted e.notices := by
  have hways := e.recorded passwords s
  constructor
  · intro h
    rw [h] at hways
    cases hways with
    | written secret hname hkey hrandom hfits =>
      exact ⟨⟨hname, ⟨secret, hkey⟩, hfits⟩, hrandom, rfl, rfl⟩
  · rintro ⟨⟨hname, ⟨secret, hkey⟩, hfits⟩, hrandom, rfl, rfl⟩
    generalize (e.record passwords).run.run s = out at hways ⊢
    cases hways with
    | written => rfl
    | longName hlong => exact absurd hname (Nat.not_le.mpr hlong)
    | unsupported _ hother => exact absurd rfl (hother _ hkey)
    | noPrivatePart _ hnone => exact nomatch hkey.symm.trans hnone
    | noRandomness _ _ _ hdry => exact absurd hrandom (Nat.not_le.mpr hdry)
    | oversized _ _ _ _ _ hlarge => exact absurd hfits hlarge

end Keystore
