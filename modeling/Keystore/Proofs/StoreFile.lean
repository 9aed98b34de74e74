import Keystore.Proofs.Record
import Keystore.StoreFile

/-!
# What a written file is

Writing a file succeeds exactly if each entry can be stored and there are enough
random bytes for the keys, and the file then is its `layout`: the header, the layouts
of the records, and the trailer (`run_toFile_eq_ok`). The salts of the keys are
successive pieces of the random bytes, so `KeyEntry.salted` walks along both.

If writing fails, either the entries cannot be counted, or some entry is the first
whose record does not come about (`Contents.Recorded`). The supply is then as the entries
before it have left it.
-/

namespace Keystore

variable {passwords : Passwords} {s s' : Supply}

/-! ## Certificates in a row -/

/-- The notices that the records of some certificates give. -/
def CertificateEntry.allNotices (es : List CertificateEntry) : List Notice :=
  es.flatMap fun e => Record.clockNotices e.name e.time

/-- Certificates are written one by one, each as its layout. They take no random bytes. -/
theorem CertificateEntry.run_records_eq_ok {es : List CertificateEntry} {rs : List Bytes} :
    (es.mapM CertificateEntry.record).run.run s = (.ok rs, s') ↔
      (∀ e ∈ es, e.Storable) ∧ rs = es.map (CertificateEntry.layout s.now)
        ∧ s' = s.noted (allNotices es) := by
  induction es generalizing s rs with
  | nil =>
    rw [Computation.run_mapM_nil, allNotices, List.flatMap_nil, Supply.noted_nil]
    constructor
    · intro h
      obtain ⟨hrs, rfl⟩ := Prod.mk.inj h
      obtain rfl := Except.ok.inj hrs
      exact ⟨List.forall_mem_nil _, rfl, rfl⟩
    · rintro ⟨-, rfl, rfl⟩
      rfl
  | cons e es ih =>
    have hnotices : s.noted (allNotices (e :: es))
        = (s.noted (Record.clockNotices e.name e.time)).noted (allNotices es) := by
      rw [Supply.noted_noted]
      rfl
    rw [Computation.run_mapM_cons_eq_ok, hnotices]
    constructor
    · rintro ⟨r, s₁, rs, hfirst, hrest, rfl⟩
      obtain ⟨hstorable, rfl, rfl⟩ := CertificateEntry.run_record_eq_ok.mp hfirst
      obtain ⟨hall, rfl, rfl⟩ := ih.mp hrest
      exact ⟨List.forall_mem_cons.mpr ⟨hstorable, hall⟩, rfl, rfl⟩
    · rintro ⟨hall, rfl, rfl⟩
      obtain ⟨hstorable, hrest⟩ := List.forall_mem_cons.mp hall
      exact ⟨_, _, _, CertificateEntry.run_record_eq_ok.mpr ⟨hstorable, rfl, rfl⟩,
        ih.mpr ⟨hrest, rfl, rfl⟩, rfl⟩

/-! ## Keys in a row -/

/-- The notices that the records of some keys give. -/
def KeyEntry.allNotices (es : List KeyEntry) : List Notice := es.flatMap KeyEntry.notices

/-- What is made of each of some keys with its salt. The salts come one after the other from
the front of the random bytes. -/
def KeyEntry.salted {α : Type} (make : Bytes → KeyEntry → α) : Bytes → List KeyEntry → List α
  | _, [] => []
  | random, e :: es =>
    make (random.take KeyProtector.saltSize) e
      :: salted make (random.drop KeyProtector.saltSize) es

/-- What holds for each key, whatever its salt, holds for all of them in order. -/
theorem KeyEntry.forall₂_salted {α β : Type} {R : α → β → Prop} {f : Bytes → KeyEntry → α}
    {g : Bytes → KeyEntry → β} {es : List KeyEntry}
    (h : ∀ e ∈ es, ∀ salt : Bytes, salt.length = KeyProtector.saltSize → R (f salt e) (g salt e))
    {random : Bytes} (hrandom : KeyProtector.saltSize * es.length ≤ random.length) :
    List.Forall₂ R (salted f random es) (salted g random es) := by
  induction es generalizing random with
  | nil => exact .nil
  | cons e es ih =>
    obtain ⟨he, hes⟩ := List.forall_mem_cons.mp h
    rw [List.length_cons, Nat.mul_succ] at hrandom
    refine .cons (he _ ?_) (ih hes ?_)
    · rw [List.length_take]
      omega
    · rw [List.length_drop]
      omega

theorem KeyEntry.length_salted {α : Type} (make : Bytes → KeyEntry → α) (random : Bytes)
    (es : List KeyEntry) : (salted make random es).length = es.length := by
  induction es generalizing random with
  | nil => rfl
  | cons e es ih => rw [salted, List.length_cons, List.length_cons, ih]

/-- Keys without their salts are the keys. -/
theorem KeyEntry.salted_id (random : Bytes) (es : List KeyEntry) :
    salted (fun _ e => e) random es = es := by
  induction es generalizing random with
  | nil => rfl
  | cons e es ih => rw [salted, ih]

/-- The bytes of the records of some keys. -/
def KeyEntry.layouts (passwords : Passwords) (now : Instant) : Bytes → List KeyEntry → List Bytes :=
  salted (KeyEntry.layout passwords now)

/-- Keys are written one by one, each as its layout with the next salt. -/
theorem KeyEntry.run_records_eq_ok {es : List KeyEntry} {rs : List Bytes} :
    (es.mapM (KeyEntry.record passwords)).run.run s = (.ok rs, s') ↔
      (∀ e ∈ es, e.Storable) ∧ KeyProtector.saltSize * es.length ≤ s.random.length
        ∧ rs = layouts passwords s.now s.random es
        ∧ s' = (s.drawn (KeyProtector.saltSize * es.length)).noted (allNotices es) := by
  induction es generalizing s rs with
  | nil =>
    rw [Computation.run_mapM_nil, allNotices, List.flatMap_nil, Supply.noted_nil]
    constructor
    · intro h
      obtain ⟨hrs, rfl⟩ := Prod.mk.inj h
      obtain rfl := Except.ok.inj hrs
      exact ⟨List.forall_mem_nil _, Nat.zero_le _, rfl, rfl⟩
    · rintro ⟨-, -, rfl, rfl⟩
      rfl
  | cons e es ih =>
    -- the head takes the first salt, and the rest starts from what is left
    have hsupply : (s.drawn (KeyProtector.saltSize * (e :: es).length)).noted (allNotices (e :: es))
        = (((s.drawn KeyProtector.saltSize).noted e.notices).drawn
            (KeyProtector.saltSize * es.length)).noted (allNotices es) := by
      rw [List.length_cons, Nat.mul_succ, Nat.add_comm]
      simp only [Supply.drawn, Supply.noted, List.drop_drop, List.append_assoc, allNotices,
        List.flatMap_cons]
    rw [Computation.run_mapM_cons_eq_ok, hsupply]
    constructor
    · rintro ⟨r, s₁, rs, hfirst, hrest, rfl⟩
      obtain ⟨hstorable, hrandom, rfl, rfl⟩ := KeyEntry.run_record_eq_ok.mp hfirst
      obtain ⟨hall, hlater, rfl, rfl⟩ := ih.mp hrest
      rw [Supply.random_noted, Supply.random_drawn, List.length_drop] at hlater
      refine ⟨List.forall_mem_cons.mpr ⟨hstorable, hall⟩, ?_, rfl, rfl⟩
      rw [List.length_cons, Nat.mul_succ, Nat.add_comm]
      omega
    · rintro ⟨hall, hrandom, rfl, rfl⟩
      obtain ⟨hstorable, hrest⟩ := List.forall_mem_cons.mp hall
      rw [List.length_cons, Nat.mul_succ, Nat.add_comm] at hrandom
      refine ⟨_, _, _, KeyEntry.run_record_eq_ok.mpr ⟨hstorable, by omega, rfl, rfl⟩,
        ih.mpr ⟨hrest, ?_, rfl, rfl⟩, rfl⟩
      rw [Supply.random_noted, Supply.random_drawn, List.length_drop]
      omega

/-! ## The file -/

namespace Contents

/-- The bytes of a file in front of its trailer. -/
def bodyLayout (passwords : Passwords) (now : Instant) (random : Bytes) (c : Contents) : Bytes :=
  Header.bytes c.size ++ (c.certificates.map (CertificateEntry.layout now)).flatten
    ++ (KeyEntry.layouts passwords now random c.keys).flatten

/-- The bytes of a file. -/
def layout (passwords : Passwords) (now : Instant) (random : Bytes) (c : Contents) : Bytes :=
  c.bodyLayout passwords now random
    ++ Trailer.make passwords.store (c.bodyLayout passwords now random)

/-- Entries that can be stored in one file. -/
structure Storable (c : Contents) : Prop where
  size : c.size ≤ entryLimit
  certificates : ∀ e ∈ c.certificates, e.Storable
  keys : ∀ e ∈ c.keys, e.Storable

/-- The notices in front of the records of the keys. -/
def frontNotices (c : Contents) : List Notice :=
  [.moved .start .header, .moved .header .certs]
    ++ CertificateEntry.allNotices c.certificates ++ [.moved .certs .keypairs]

/-- The notices of writing a file of `size` bytes. -/
def allNotices (c : Contents) (size : Nat) : List Notice :=
  c.frontNotices ++ KeyEntry.allNotices c.keys
    ++ [.moved .keypairs .digest, .moved .digest .done,
      .written c.certificates.length c.keys.length size]

/-- The ways in which writing a file ends. -/
inductive Recorded (passwords : Passwords) (c : Contents) (s : Supply) :
    Except Fault Bytes × Supply → Prop
  | written (hstorable : c.Storable)
    (hrandom : KeyProtector.saltSize * c.keys.length ≤ s.random.length) :
    Recorded passwords c s
      (.ok (c.layout passwords s.now s.random),
        (s.drawn (KeyProtector.saltSize * c.keys.length)).noted
          (c.allNotices (c.layout passwords s.now s.random).length))
  | tooMany (hsize : entryLimit < c.size) :
    Recorded passwords c s
      (.error (.tooManyEntries c.size),
        s.noted [.moved .start .header, .moved .header .failed])
  | certificate (front : List CertificateEntry) (e : CertificateEntry)
    (back : List CertificateEntry) (f : Fault) (s' : Supply)
    (hcertificates : c.certificates = front ++ e :: back) (hfront : ∀ d ∈ front, d.Storable)
    (hfail : e.record.run.run (s.noted ([.moved .start .header, .moved .header .certs]
      ++ CertificateEntry.allNotices front)) = (.error f, s')) :
    Recorded passwords c s (.error f, s'.noted [.moved .certs .failed])
  | key (front : List KeyEntry) (e : KeyEntry) (back : List KeyEntry) (f : Fault) (s' : Supply)
    (hcertificates : ∀ d ∈ c.certificates, d.Storable)
    (hkeys : c.keys = front ++ e :: back) (hfront : ∀ d ∈ front, d.Storable)
    (hrandom : KeyProtector.saltSize * front.length ≤ s.random.length)
    (hfail : (e.record passwords).run.run ((s.drawn (KeyProtector.saltSize * front.length)).noted
      (c.frontNotices ++ KeyEntry.allNotices front)) = (.error f, s')) :
    Recorded passwords c s (.error f, s'.noted [.moved .keypairs .failed])

/-- The header comes about if the entries can be counted. -/
theorem headerField_eq (c : Contents) :
    c.headerField = if c.size ≤ entryLimit then .ok (Header.bytes c.size)
      else .error (.tooManyEntries c.size) := by
  rw [headerField]
  by_cases h : c.size ≤ entryLimit
  · rw [if_neg (Nat.not_lt.mpr h), if_pos h]
  · rw [if_pos (Nat.lt_of_not_le h), if_neg h]

/-- Entries that cannot be counted are refused before any of them is looked at. -/
theorem run_toFile_of_tooMany {c : Contents} (h : entryLimit < c.size) :
    (c.toFile passwords).run.run s
      = (.error (.tooManyEntries c.size),
          s.noted [.moved .start .header, .moved .header .failed]) := by
  have hstage : (Task.during .header (liftM c.headerField)).run.run
      (s.noted [.moved .start .header])
      = (.error (.tooManyEntries c.size),
          (s.noted [.moved .start .header]).noted [.moved .header .failed]) := by
    rw [headerField_eq, if_neg (Nat.not_le.mpr h)]
    exact Task.run_during_of_error (Computation.run_liftM _ _)
  rw [toFile, Computation.run_bind_of_ok (Task.run_note _ s), Computation.run_bind_of_error hstage,
    Supply.noted_noted]
  rfl

/-- Writing a file ends in one of these ways. -/
theorem recorded (passwords : Passwords) (c : Contents) (s : Supply) :
    c.Recorded passwords s ((c.toFile passwords).run.run s) := by
  by_cases hsize : c.size ≤ entryLimit
  · have hstage : (Task.during .header (liftM c.headerField)).run.run
        (s.noted [.moved .start .header])
        = (.ok (Header.bytes c.size), s.noted [.moved .start .header]) := by
      rw [headerField_eq, if_pos hsize]
      exact Task.run_during_of_ok (Computation.run_liftM _ _)
    rw [toFile, Computation.run_bind_of_ok (Task.run_note _ s),
      Computation.run_bind_of_ok hstage, Computation.run_bind_of_ok (Task.run_note _ _),
      Supply.noted_noted]
    -- the certificates: all of them, or the first that fails
    rcases hrun : (c.certificates.mapM CertificateEntry.record).run.run
      (s.noted ([.moved .start .header] ++ [.moved .header .certs])) with ⟨f | rs, s₁⟩
    · obtain ⟨front, e, back, bs, s₀, hsplit, hfront, hfail⟩ := Computation.run_mapM_eq_error hrun
      obtain ⟨hall, rfl, rfl⟩ := CertificateEntry.run_records_eq_ok.mp hfront
      rw [Computation.run_bind_of_error (Task.run_during_of_error hrun)]
      rw [Supply.noted_noted] at hfail
      exact .certificate front e back f s₁ hsplit hall hfail
    · obtain ⟨hall, rfl, rfl⟩ := CertificateEntry.run_records_eq_ok.mp hrun
      have hnotices : [.moved .start .header] ++ [.moved .header .certs]
          ++ (CertificateEntry.allNotices c.certificates ++ [.moved .certs .keypairs])
          = c.frontNotices := by
        rw [frontNotices, List.append_assoc]
        rfl
      rw [Computation.run_bind_of_ok (Task.run_during_of_ok hrun),
        Computation.run_bind_of_ok (Task.run_note _ _), Supply.noted_noted, Supply.noted_noted,
        hnotices]
      -- the keys: all of them, or the first that fails
      rcases hrun : (c.keys.mapM (KeyEntry.record passwords)).run.run (s.noted c.frontNotices)
        with ⟨f | rs, s₁⟩
      · obtain ⟨front, e, back, bs, s₀, hsplit, hfront, hfail⟩ := Computation.run_mapM_eq_error hrun
        obtain ⟨hstorable, hrandom, rfl, rfl⟩ := KeyEntry.run_records_eq_ok.mp hfront
        rw [Computation.run_bind_of_error (Task.run_during_of_error hrun)]
        refine .key front e back f s₁ hall hsplit hstorable hrandom ?_
        rw [← Supply.noted_noted]
        exact hfail
      · obtain ⟨hstorable, hrandom, rfl, rfl⟩ := KeyEntry.run_records_eq_ok.mp hrun
        rw [Computation.run_bind_of_ok (Task.run_during_of_ok hrun),
          Computation.run_bind_of_ok (Task.run_note _ _)]
        dsimp only
        rw [Computation.run_bind_of_ok (Task.run_note _ _),
          Computation.run_bind_of_ok (Task.run_note _ _),
          Supply.noted_noted _ [.moved .keypairs .digest] [.moved .digest .done],
          Supply.noted_noted _ (_ ++ _) [_]]
        have hwritten : c.Recorded passwords s _ := .written ⟨hsize, hall, hstorable⟩ hrandom
        rw [allNotices, ← Supply.noted_noted, ← Supply.noted_noted] at hwritten
        exact hwritten
  · rw [run_toFile_of_tooMany (Nat.lt_of_not_le hsize)]
    exact .tooMany (Nat.lt_of_not_le hsize)

/-- A file comes about exactly if all entries can be stored and there are enough random
bytes, and is then the layout. -/
theorem run_toFile_eq_ok {c : Contents} {file : Bytes} :
    (c.toFile passwords).run.run s = (.ok file, s') ↔
      c.Storable ∧ KeyProtector.saltSize * c.keys.length ≤ s.random.length
        ∧ file = c.layout passwords s.now s.random
        ∧ s' = (s.drawn (KeyProtector.saltSize * c.keys.length)).noted
            (c.allNotices file.length) := by
  have hways := c.recorded passwords s
  constructor
  · intro h
    rw [h] at hways
    cases hways with
    | written hstorable hrandom => exact ⟨hstorable, hrandom, rfl, rfl⟩
  · rintro ⟨hstorable, hrandom, rfl, rfl⟩
    generalize (c.toFile passwords).run.run s = out at hways ⊢
    cases hways with
    | written => rfl
    | tooMany hsize => exact absurd hstorable.size (Nat.not_le.mpr hsize)
    | certificate front e back f s₁ hsplit _ hfail =>
      have he : e ∈ c.certificates := by
        rw [hsplit]
        exact List.mem_append_cons_self
      rw [CertificateEntry.run_record_eq_ok.mpr ⟨hstorable.certificates e he, rfl, rfl⟩] at hfail
      exact nomatch congrArg Prod.fst hfail
    | key front e back f s₁ _ hsplit _ hfront hfail =>
      have he : e ∈ c.keys := by
        rw [hsplit]
        exact List.mem_append_cons_self
      -- behind the keys in front there is a salt left for this one
      have hleft : KeyProtector.saltSize
          ≤ (s.random.drop (KeyProtector.saltSize * front.length)).length := by
        rw [hsplit, List.length_append, List.length_cons, Nat.mul_add, Nat.mul_succ] at hrandom
        rw [List.length_drop]
        omega
      rw [KeyEntry.run_record_eq_ok.mpr ⟨hstorable.keys e he, hleft, rfl, rfl⟩] at hfail
      exact nomatch congrArg Prod.fst hfail

end Contents

/-! ## A sample -/

/-- A store with a certificate and a key. The alias of the certificate reads like the
number of a record, and its moment is not given. -/
def Contents.sample : Contents where
  certificates := [⟨[0, 0, 0, 2], .unset, [0x30, 0]⟩]
  keys := [⟨Bytes.ascii "key", ⟨5000000⟩, some ⟨.rsa, some [0x30, 0]⟩, [[1, 2], [3]]⟩]

/-- A password for the store, and another one for its key. -/
def Passwords.sample : Passwords := ⟨Bytes.ascii "changeit", [(Bytes.ascii "key", [0x71])]⟩

/-- A supply that is enough for one salt, one millisecond into 1970. -/
def Supply.sample : Supply := ⟨⟨1000000⟩, List.replicate 20 7, true, []⟩

theorem Contents.storable_sample : Contents.sample.Storable where
  size := by decide
  certificates := List.forall_mem_singleton.mpr ⟨by decide, by decide⟩
  keys := by
    refine List.forall_mem_singleton.mpr ⟨by decide, ⟨_, rfl⟩, ⟨?_, by decide⟩⟩
    intro k secret hkey hsecret
    obtain rfl := Option.some.inj hkey
    obtain rfl := Option.some.inj hsecret
    decide +kernel

end Keystore
