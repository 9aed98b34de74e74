import Keystore.Proofs.OptionValues
import Keystore.Proofs.VerifyCommand

/-!
# How the commands end

What a command needs to succeed is said here without its run: arguments that can be read, files
that can be read and hold what is wanted, a password, enough random bytes, and an output that can
be written (`Command.Succeeds`). For `pack` the way from a run to what was there is known
(`exists_of_runPack`), and here the way back is gone, load by load (`IsPackable.run`).

Every run then ends as `Command.Ends` says: it succeeds where it can, `verify` may also look at a
file and reject it, the command that only shows how the program is used says so, and everything
else is a failure (`Command.ends_run`).
-/

namespace Keystore

open CommandLine
open Bytes (ascii)

/-! ## Files that hold nothing -/

theorem Bundle.certificates_nil : certificates [] = [] := by
  decide +kernel

theorem Bundle.key?_nil : key? [] = none := by
  decide +kernel

variable {s s' : Session}

/-! ## Loading -/

/-- A certificate that is there is loaded. -/
theorem CertificateEntry.IsLoaded.run {time : Instant} {name path : Bytes} {e : CertificateEntry}
    (h : e.IsLoaded s.files time name path) :
    ∃ s', (loadCertificate time (name, path)).run.run s = (.ok e, s') ∧ s.Alike s' := by
  obtain ⟨ename, etime, der⟩ := e
  obtain ⟨rfl, rfl, data, rest, hread, hfound⟩ := h
  have hdata : data ≠ [] := by
    intro hnil
    rw [hnil, Bundle.certificates_nil] at hfound
    exact nomatch hfound
  have hsome : Bundle.certificates data ≠ [] := by
    rw [hfound]
    exact List.cons_ne_nil _ _
  have hload := Shell.run_certificatesIn_eq_ok.mpr ⟨data, hread, hdata, rfl, hsome, rfl⟩
  unfold loadCertificate
  rw [Computation.run_bind_of_ok hload, hfound]
  dsimp only
  split
  next => exact ⟨_, rfl, Session.alike_report s _⟩
  next => exact ⟨s, rfl, .refl s⟩

/-- A key that is there is loaded, with its chain. -/
theorem KeyEntry.IsLoaded.run {time : Instant} {source : KeySource} {e : KeyEntry}
    (h : e.IsLoaded s.files time source) :
    (loadKeyEntry time source).run.run s = (.ok e, s) := by
  obtain ⟨ename, etime, ekey, echain⟩ := e
  obtain ⟨rfl, rfl, ⟨data, key, hread, hfound, rfl⟩, hchain⟩ := h
  have hdata : data ≠ [] := by
    intro hnil
    rw [hnil, Bundle.key?_nil] at hfound
    exact nomatch hfound
  have hload := Shell.run_keyIn_eq_ok.mpr ⟨data, hread, hdata, hfound, rfl⟩
  unfold loadKeyEntry
  rw [Computation.run_bind_of_ok hload]
  dsimp only at hchain ⊢
  rcases hchain with ⟨hnone, rfl⟩ | ⟨hpath, hsome, file, hfile, rfl⟩
  · rw [if_pos hnone]
    rfl
  · have hdata' : file ≠ [] := by
      intro hnil
      rw [hnil] at hsome
      exact hsome Bundle.certificates_nil
    rw [if_neg hpath, Computation.run_bind_of_ok
      (Shell.run_certificatesIn_eq_ok.mpr ⟨file, hfile, hdata', rfl, hsome, rfl⟩)]
    rfl

namespace CommandLine

open Shell

/-- The passwords for keys can always be looked up. -/
theorem run_keyPasswords (given : List (Bytes × Bytes)) (s : Session) :
    (given.mapM fun (name, text) => return (name, ← passwordOf text) :
      Shell (List (Bytes × Bytes))).run.run s
      = (.ok (given.map fun a => (a.1, Password.ofText s.environment s.files a.2)), s) := by
  induction given with
  | nil => rfl
  | cons a given ih => exact Computation.run_mapM_cons_eq_ok.mpr ⟨_, s, _, rfl, ih, rfl⟩

/-! ## Packing -/

/-- What `pack` needs to succeed with its options: a password, the certificates and the keys,
entries that can be stored, random bytes for the keys, and an output that takes the file. -/
structure IsPackable (s : Session) (o : PackOptions) (passwords : Passwords) (c : Contents) :
    Prop where
  store : passwords.store
    = Password.ofText s.environment s.files (storeSource s.environment o.password)
  store_ne_nil : passwords.store ≠ []
  own : passwords.own
    = o.keyPasswords.map fun a => (a.1, Password.ofText s.environment s.files a.2)
  certificates : List.Forall₂
    (fun a e => CertificateEntry.IsLoaded s.files (o.time.getD .unset) a.1 a.2 e)
    o.certificates c.certificates
  keys : List.Forall₂ (KeyEntry.IsLoaded s.files (o.time.getD .unset)) o.keys c.keys
  storable : c.Storable
  random : KeyProtector.saltSize * c.keys.length ≤ s.random.length
  written : ∃ files, s.files.write o.output (c.layout passwords s.now s.random) = .ok files

/-- What was packed was there to be packed. -/
theorem Packs.isPackable {o : PackOptions} {passwords : Passwords} {c : Contents} {file : Bytes}
    (h : Packs s o passwords c file s') : IsPackable s o passwords c := by
  obtain ⟨used, hmade, -⟩ := h.made
  obtain ⟨hstorable, hrandom, rfl, -⟩ := Contents.run_toFile_eq_ok.mp hmade
  exact ⟨h.store, h.store_ne_nil, h.own, h.certificates, h.keys, hstorable, hrandom, _, h.written⟩

/-- What is there to be packed is packed: no step in between changes what the next one needs. -/
theorem IsPackable.run {o : PackOptions} {passwords : Passwords} {c : Contents}
    (h : IsPackable s o passwords c) : ∃ s', (runPack o).run.run s = (.ok success, s') := by
  obtain ⟨store, own⟩ := passwords
  obtain ⟨certificates, keys⟩ := c
  obtain ⟨files, hwritten⟩ := h.written
  have hpassword := run_requirePassword_eq_ok.mpr ⟨h.store, h.store_ne_nil, rfl⟩
  have hown := run_keyPasswords o.keyPasswords s
  rw [← h.own] at hown
  -- all loads see the files at the start
  have hloadCertificate : ∀ {u : Session} {a : Bytes × Bytes} {e : CertificateEntry}, s.Alike u →
      e.IsLoaded s.files (o.time.getD .unset) a.1 a.2 →
      ∃ u', (loadCertificate (o.time.getD .unset) a).run.run u = (.ok e, u') ∧ s.Alike u' := by
    intro u a e hu he
    rw [← hu.files] at he
    obtain ⟨u', hrun, hu'⟩ := he.run
    exact ⟨u', hrun, hu.trans hu'⟩
  have hloadKey : ∀ {u : Session} {source : KeySource} {e : KeyEntry}, s.Alike u →
      e.IsLoaded s.files (o.time.getD .unset) source →
      ∃ u', (loadKeyEntry (o.time.getD .unset) source).run.run u = (.ok e, u') ∧ s.Alike u' := by
    intro u source e hu he
    rw [← hu.files] at he
    exact ⟨u, he.run, hu⟩
  obtain ⟨s₁, hcertificates, halike₁⟩ :=
    Computation.exists_run_mapM (R := fun (a : Bytes × Bytes) e =>
      CertificateEntry.IsLoaded s.files (o.time.getD .unset) a.1 a.2 e)
      hloadCertificate h.certificates (.refl s)
  obtain ⟨s₂, hkeys, halike₂⟩ := Computation.exists_run_mapM
    (R := KeyEntry.IsLoaded s.files (o.time.getD .unset)) hloadKey h.keys halike₁
  -- the file is made from the supply at the start, and written over the files at the start
  have hmade : ∃ used, (Contents.toFile ⟨store, own⟩ ⟨certificates, keys⟩).run.run s₂.supply
      = (.ok (Contents.layout ⟨store, own⟩ s.now s.random ⟨certificates, keys⟩), used) := by
    rw [halike₂.supply]
    exact ⟨_, Contents.run_toFile_eq_ok.mpr ⟨h.storable, h.random, rfl, rfl⟩⟩
  obtain ⟨used, hmade⟩ := hmade
  have htask := Shell.run_task_eq_ok.mpr ⟨used, hmade, rfl⟩
  have hfiles : (s₂.after used).files = s.files :=
    (Session.alike_after s₂ used).files.trans halike₂.files
  rw [← hfiles] at hwritten
  have hwrite := Shell.run_write_eq_ok.mpr ⟨files, hwritten, rfl⟩
  unfold runPack
  rw [Computation.run_bind_of_ok hpassword, Computation.run_bind_of_ok hown]
  dsimp only
  rw [Computation.run_bind_of_ok hcertificates, Computation.run_bind_of_ok hkeys,
    Computation.run_bind_of_ok htask, Computation.run_bind_of_ok hwrite]
  exact ⟨_, rfl⟩

/-! ## What the commands need -/

/-- The arguments of `verify` are a path and a row of passwords, of which the last one counts. -/
inductive VerifyOptions.AreGiven : List Bytes → VerifyOptions → Prop
  | intro (input : Bytes) {options : List Bytes} {pairs : List (PackFlag × Bytes)}
    (hrow : IsRow options pairs) (hpasswords : ∀ p ∈ pairs, p.1 = .password) :
    AreGiven (input :: options) ⟨input, (given .password pairs).getLastD []⟩

/-- What `verify` needs so that it can look at a file. -/
structure IsSeen (s : Session) (o : VerifyOptions) (file : Bytes) : Prop where
  read : s.files.read o.input = .ok file
  size : 32 ≤ file.length
  password : storePassword s o.password ≠ []

/-- What a command needs to succeed in a session. -/
inductive Command.Succeeds (s : Session) : Command → Prop
  | pack {args : List Bytes} {pairs : List (PackFlag × Bytes)} {o : PackOptions}
    {passwords : Passwords} {c : Contents} (hrow : IsRow args pairs) (hreadable : IsReadable pairs)
    (hoptions : o.Holds pairs) (hpackable : IsPackable s o passwords c) : Succeeds s (.pack args)
  | verify {args : List Bytes} {o : VerifyOptions} {file : Bytes} (hoptions : o.AreGiven args)
    (hseen : IsSeen s o file) (haccepted : IsAccepted (storePassword s o.password) file) :
    Succeeds s (.verify args)
  | info {path file : Bytes} (hread : s.files.read path = .ok file) (hsize : 32 ≤ file.length) :
    Succeeds s (.info path)
  | version : Succeeds s .version

/-- `verify` can look at a file, and the file does not pass. -/
inductive Command.Rejects (s : Session) : Command → Prop
  | verify {args : List Bytes} {o : VerifyOptions} {file : Bytes} (hoptions : o.AreGiven args)
    (hseen : IsSeen s o file) (hrejected : ¬ IsAccepted (storePassword s o.password) file) :
    Rejects s (.verify args)

/-- How a command ends in a session. -/
inductive Command.Ends (s : Session) : Command → Except Failure Nat → Prop
  | succeeded {c : Command} (h : c.Succeeds s) : Ends s c (.ok success)
  | rejected {c : Command} (h : c.Rejects s) : Ends s c (.ok failure)
  | usage : Ends s .usage (.ok misuse)
  | failed {c : Command} (f : Failure) (hsucceeds : ¬ c.Succeeds s) (hrejects : ¬ c.Rejects s)
    (husage : c ≠ .usage) : Ends s c (.error f)

/-! ## `pack` -/

theorem Command.succeeds_pack_iff {args : List Bytes} : Succeeds s (.pack args)
    ↔ ∃ o, PackOptions.read args = .ok o ∧ ∃ passwords c, IsPackable s o passwords c := by
  constructor
  · intro h
    cases h with
    | pack hrow hreadable hoptions hpackable =>
      exact ⟨_, PackOptions.read_eq_ok_iff.mpr ⟨_, hrow, hreadable, hoptions⟩, _, _, hpackable⟩
  · intro h
    obtain ⟨o, hread, passwords, c, hpackable⟩ := h
    obtain ⟨pairs, hrow, hreadable, hoptions⟩ := PackOptions.read_eq_ok_iff.mp hread
    exact .pack hrow hreadable hoptions hpackable

theorem Command.ends_pack (s : Session) (args : List Bytes) :
    Ends s (.pack args) ((Command.pack args).run.run.run s).1 := by
  have hrejects : ¬ Rejects s (.pack args) := fun h => nomatch h
  rcases hread : PackOptions.read args with f | o
  · have hrun : ((Command.pack args).run.run.run s).1 = .error f :=
      congrArg Prod.fst (Computation.run_liftM_bind_of_error hread s)
    rw [hrun]
    refine .failed f (fun h => ?_) hrejects nofun
    obtain ⟨o, ho, -⟩ := succeeds_pack_iff.mp h
    exact nomatch hread.symm.trans ho
  · have hrun : (Command.pack args).run.run.run s = (runPack o).run.run s :=
      Computation.run_liftM_bind_of_ok hread s
    rw [hrun]
    rcases hpack : (runPack o).run.run s with ⟨f | status, s'⟩
    · refine .failed f (fun h => ?_) hrejects nofun
      obtain ⟨o', ho', passwords, c, hpackable⟩ := succeeds_pack_iff.mp h
      obtain rfl := Except.ok.inj (hread.symm.trans ho')
      obtain ⟨s₁, hsuccess⟩ := hpackable.run
      exact nomatch congrArg Prod.fst (hpack.symm.trans hsuccess)
    · obtain ⟨rfl, passwords, c, file, hpacks⟩ := exists_of_runPack hpack
      exact .succeeded (succeeds_pack_iff.mpr ⟨o, hread, passwords, c, hpacks.isPackable⟩)

/-! ## `verify` -/

theorem VerifyOptions.read_eq_ok_iff {args : List Bytes} {o : VerifyOptions} :
    VerifyOptions.read args = .ok o ↔ o.AreGiven args := by
  constructor
  · intro h
    cases args with
    | nil => exact nomatch h
    | cons input options =>
      obtain ⟨pairs, hrow, hpasswords, rfl⟩ := readPairs_eq_ok_iff.mp h
      exact .intro input hrow hpasswords
  · intro h
    cases h with
    | intro input hrow hpasswords =>
      exact readPairs_eq_ok_iff.mpr ⟨_, hrow, hpasswords, rfl⟩

theorem VerifyOptions.AreGiven.unique {args : List Bytes} {o o' : VerifyOptions}
    (h : o.AreGiven args) (h' : o'.AreGiven args) : o = o' :=
  Except.ok.inj ((read_eq_ok_iff.mpr h).symm.trans (read_eq_ok_iff.mpr h'))

/-- `verify` comes to a result exactly if it can look at a file, and the result says whether the
file is accepted. -/
theorem run_runVerify_cases (s : Session) (o : VerifyOptions) :
    (∃ file, IsSeen s o file ∧ IsAccepted (storePassword s o.password) file
        ∧ ((runVerify o).run.run s).1 = .ok success)
      ∨ (∃ file, IsSeen s o file ∧ ¬ IsAccepted (storePassword s o.password) file
        ∧ ((runVerify o).run.run s).1 = .ok failure)
      ∨ (∀ file, ¬ IsSeen s o file) ∧ ∃ f, ((runVerify o).run.run s).1 = .error f := by
  rcases hrequire : (requirePassword o.password).run.run s with ⟨f | password, s₁⟩
  · refine Or.inr (Or.inr ⟨fun file hseen => ?_, f, ?_⟩)
    · exact nomatch congrArg Prod.fst
        (hrequire.symm.trans (run_requirePassword_eq_ok.mpr ⟨rfl, hseen.password, rfl⟩))
    · rw [runVerify, Computation.run_bind_of_error hrequire]
  obtain ⟨rfl, hpassword, rfl⟩ := run_requirePassword_eq_ok.mp hrequire
  change storePassword s₁ o.password ≠ [] at hpassword
  rcases hread : s₁.files.read o.input with r | file
  · refine Or.inr (Or.inr ⟨fun file hseen => ?_, readFailure o.input r, ?_⟩)
    · exact nomatch hread.symm.trans hseen.read
    · rw [runVerify, Computation.run_bind_of_ok hrequire, Computation.run_bind, run_read, hread]
      rfl
  have hfile := run_read_eq_ok.mpr ⟨hread, rfl⟩
  rcases Header.read_cases file with ⟨hshort, hrefused⟩ | ⟨hlong, header, hheader, -⟩
  · refine Or.inr (Or.inr ⟨fun file' hseen => ?_, .fault (.storeTooSmall file.length), ?_⟩)
    · obtain rfl := Except.ok.inj (hread.symm.trans hseen.read)
      exact absurd hseen.size (Nat.not_le.mpr hshort)
    · rw [runVerify, Computation.run_bind_of_ok hrequire, Computation.run_bind_of_ok hfile,
        Computation.run_bind_of_error (run_task_liftM_of_error hrefused s₁)]
  · obtain ⟨s', hrun, -⟩ := run_runVerify_of_header hread hpassword hheader
    have hchecks := checks_iff_isAccepted hpassword hheader
    by_cases haccepted : IsAccepted (storePassword s₁ o.password) file
    · rw [if_pos (hchecks.mpr haccepted)] at hrun
      exact Or.inl ⟨file, ⟨hread, hlong, hpassword⟩, haccepted, congrArg Prod.fst hrun⟩
    · rw [if_neg (fun h => haccepted (hchecks.mp h))] at hrun
      exact Or.inr (Or.inl ⟨file, ⟨hread, hlong, hpassword⟩, haccepted, congrArg Prod.fst hrun⟩)

/-- Arguments with which `verify` cannot look at a file. -/
theorem Command.ends_verify_of_not_isSeen {args : List Bytes} (f : Failure)
    (h : ∀ o file, o.AreGiven args → ¬ IsSeen s o file) : Ends s (.verify args) (.error f) := by
  refine .failed f (fun hsucceeds => ?_) (fun hrejects => ?_) nofun
  · cases hsucceeds with
    | verify hoptions hseen => exact h _ _ hoptions hseen
  · cases hrejects with
    | verify hoptions hseen => exact h _ _ hoptions hseen

theorem Command.ends_verify (s : Session) (args : List Bytes) :
    Ends s (.verify args) ((Command.verify args).run.run.run s).1 := by
  rcases hread : VerifyOptions.read args with f | o
  · have hrun : ((Command.verify args).run.run.run s).1 = .error f :=
      congrArg Prod.fst (Computation.run_liftM_bind_of_error hread s)
    rw [hrun]
    refine ends_verify_of_not_isSeen f fun o file hoptions => ?_
    exact nomatch hread.symm.trans (VerifyOptions.read_eq_ok_iff.mpr hoptions)
  · have hgiven := VerifyOptions.read_eq_ok_iff.mp hread
    have hrun : (Command.verify args).run.run.run s = (runVerify o).run.run s :=
      Computation.run_liftM_bind_of_ok hread s
    rw [hrun]
    rcases run_runVerify_cases s o with ⟨file, hseen, haccepted, hstatus⟩ |
      ⟨file, hseen, hrejected, hstatus⟩ | ⟨hnone, f, hfailure⟩
    · rw [hstatus]
      exact .succeeded (.verify hgiven hseen haccepted)
    · rw [hstatus]
      exact .rejected (.verify hgiven hseen hrejected)
    · rw [hfailure]
      refine ends_verify_of_not_isSeen f fun o' file hoptions => ?_
      obtain rfl := hgiven.unique hoptions
      exact hnone file

/-! ## All commands -/

theorem Command.ends_info (s : Session) (path : Bytes) :
    Ends s (.info path) ((Command.info path).run.run.run s).1 := by
  have hrejects : ¬ Rejects s (.info path) := fun h => nomatch h
  have hsucceeds : ∀ {file}, s.files.read path = .ok file → Succeeds s (.info path) →
      32 ≤ file.length := by
    intro file hread h
    cases h with
    | info hread' hsize =>
      obtain rfl := Except.ok.inj (hread.symm.trans hread')
      exact hsize
  show Ends s (.info path) ((runInfo path).run.run s).1
  rcases hread : s.files.read path with r | file
  · have hrun : ((runInfo path).run.run s).1 = .error (readFailure path r) := by
      rw [runInfo, Computation.run_bind, run_read, hread]
      rfl
    rw [hrun]
    refine .failed _ (fun h => ?_) hrejects nofun
    cases h with
    | info hread' _ => exact nomatch hread.symm.trans hread'
  have hfile := run_read_eq_ok.mpr ⟨hread, rfl⟩
  rcases Header.read_cases file with ⟨hshort, hrefused⟩ | ⟨hlong, header, hheader, -⟩
  · have hrun : ((runInfo path).run.run s).1 = .error (.fault (.storeTooSmall file.length)) := by
      rw [runInfo, Computation.run_bind_of_ok hfile,
        Computation.run_bind_of_error (run_task_liftM_of_error hrefused s)]
    rw [hrun]
    exact .failed _ (fun h => absurd (hsucceeds hread h) (Nat.not_le.mpr hshort)) hrejects nofun
  · obtain ⟨⟨⟩, s₂, hshow, -⟩ := prints_showHeader header (s.after s.supply)
    have hrun : ((runInfo path).run.run s).1 = .ok success := by
      rw [runInfo, Computation.run_bind_of_ok hfile,
        Computation.run_bind_of_ok (run_task_liftM_of_ok hheader s),
        Computation.run_bind_of_ok hshow]
      rfl
    rw [hrun]
    exact .succeeded (.info hread hlong)

/-- Every run of a command ends as it has to. -/
theorem Command.ends_run (s : Session) (c : Command) : Ends s c (c.run.run.run s).1 := by
  cases c with
  | pack args => exact ends_pack s args
  | verify args => exact ends_verify s args
  | info path => exact ends_info s path
  | version => exact .succeeded .version
  | usage => exact .usage

/-- A file that is rejected is not accepted. -/
theorem Command.Rejects.not_succeeds {c : Command} (h : c.Rejects s) : ¬ c.Succeeds s := by
  intro hsucceeds
  cases h with
  | verify hoptions hseen hrejected =>
    cases hsucceeds with
    | verify hoptions' hseen' haccepted =>
      obtain rfl := hoptions.unique hoptions'
      obtain rfl := Except.ok.inj (hseen.read.symm.trans hseen'.read)
      exact hrejected haccepted

/-! ## Sessions that are alike -/

theorem IsPackable.of_alike {o : PackOptions} {passwords : Passwords} {c : Contents}
    (halike : s.Alike s') (h : IsPackable s' o passwords c) : IsPackable s o passwords c := by
  obtain ⟨hstore, hne, hown, hcertificates, hkeys, hstorable, hrandom, hwritten⟩ := h
  rw [halike.environment, halike.files] at hstore hown
  rw [halike.files] at hcertificates hkeys hwritten
  rw [halike.random] at hrandom hwritten
  rw [halike.now] at hwritten
  exact ⟨hstore, hne, hown, hcertificates, hkeys, hstorable, hrandom, hwritten⟩

theorem IsSeen.of_alike {o : VerifyOptions} {file : Bytes} (halike : s.Alike s')
    (h : IsSeen s' o file) : IsSeen s o file := by
  obtain ⟨hread, hsize, hpassword⟩ := h
  rw [halike.files] at hread
  rw [storePassword_of_alike halike] at hpassword
  exact ⟨hread, hsize, hpassword⟩

/-- Whether a command succeeds depends on the surroundings of a session only. -/
theorem Command.Succeeds.of_alike {c : Command} (halike : s.Alike s') (h : c.Succeeds s') :
    c.Succeeds s := by
  cases h with
  | pack hrow hreadable hoptions hpackable =>
    exact .pack hrow hreadable hoptions (hpackable.of_alike halike)
  | verify hoptions hseen haccepted =>
    rw [storePassword_of_alike halike] at haccepted
    exact .verify hoptions (hseen.of_alike halike) haccepted
  | info hread hsize =>
    rw [halike.files] at hread
    exact .info hread hsize
  | version => exact .version

theorem Command.Rejects.of_alike {c : Command} (halike : s.Alike s') (h : c.Rejects s') :
    c.Rejects s := by
  cases h with
  | verify hoptions hseen hrejected =>
    rw [storePassword_of_alike halike] at hrejected
    exact .verify hoptions (hseen.of_alike halike) hrejected

theorem Command.Ends.of_alike {c : Command} {result : Except Failure Nat} (halike : s.Alike s')
    (h : c.Ends s' result) : c.Ends s result := by
  cases h with
  | succeeded h => exact .succeeded (h.of_alike halike)
  | rejected h => exact .rejected (h.of_alike halike)
  | usage => exact .usage
  | failed f hsucceeds hrejects husage =>
    exact .failed f (fun h => hsucceeds (h.of_alike halike.symm))
      (fun h => hrejects (h.of_alike halike.symm)) husage

end CommandLine

end Keystore
