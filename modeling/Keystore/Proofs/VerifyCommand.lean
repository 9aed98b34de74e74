import Keystore.Proofs.FilesKept
import Keystore.Proofs.StoreSeal

/-!
# What `verify` accepts

Three checks are made on a file, for the password that the command line or the environment
gives: the header has to be there and to hold the right numbers, and the trailer has to be valid.
Together they come to one condition on the bytes (`IsAccepted`, `isAccepted_iff`), and `verify`
ends with success exactly for files that meet it. The shorter minimum length of the trailer check
never matters, since a file without room for a header is refused before.

A file that `pack` has left meets the condition for the password of the store, so `verify` accepts
it wherever that password is found again (`run_verify_accepts`).
-/

namespace Keystore.CommandLine

open Shell
open Bytes (ascii)

/-! ## Arguments -/

/-- A row of pairs that give passwords. -/
inductive ArePasswords : List Bytes → Prop
  | nil : ArePasswords []
  | cons {flag : Bytes} (value : Bytes) {rest : List Bytes}
    (hflag : flag ∈ PackFlag.password.names) (hrest : ArePasswords rest) :
    ArePasswords (flag :: value :: rest)

/-- A command line that checks the file at a path, with the last of the passwords given; `[]`
if there is none. -/
def IsVerify (args : List Bytes) (input given : Bytes) : Prop :=
  ∃ program options,
    withoutGlobalFlags (args.map Bytes.untilNul) = program :: ascii "verify" :: input :: options
      ∧ ArePasswords options ∧ given = (valuesOf PackFlag.password.names options).getLastD []

/-- Of several passwords the last one counts. -/
theorem readPairs_of_arePasswords {options : List Bytes} (h : ArePasswords options)
    (o : VerifyOptions) : o.readPairs options
      = .ok { o with password := (valuesOf PackFlag.password.names options).getLastD o.password } := by
  induction h generalizing o with
  | nil => rfl
  | @cons flag value rest hflag _ ih =>
    have hname : flag = ascii "-p" ∨ flag = ascii "--password" := by
      simpa [PackFlag.names] using hflag
    rw [VerifyOptions.readPairs, if_pos hname]
    show VerifyOptions.readPairs _ rest = _
    have hvalues : valuesOf PackFlag.password.names (flag :: value :: rest)
        = value :: valuesOf PackFlag.password.names rest := if_pos hflag
    rw [ih, hvalues, List.getLastD_cons]

/-! ## Files -/

/-- The password of the store in a session. -/
def storePassword (s : Session) (given : Bytes) : Bytes :=
  Password.ofText s.environment s.files (storeSource s.environment given)

/-- What is asked of a file under a password. -/
structure IsAccepted (password file : Bytes) : Prop where
  ne_nil : password ≠ []
  length : 32 ≤ file.length
  front : file.take 8 = [0xFE, 0xED, 0xFE, 0xED, 0, 0, 0, 2]
  trailer : file.drop (file.length - 20)
    = Sha1.digest (Utf16.ofText password
        ++ (ascii "Mighty Aphrodite" ++ file.take (file.length - 20)))

theorem isAccepted_iff {password file : Bytes} : IsAccepted password file ↔
    password ≠ [] ∧ ∃ h, Header.read file = .ok h ∧ Trailer.isValid password file = true
      ∧ h.magicOk = true ∧ h.versionOk = true := by
  rcases Header.read_cases file with ⟨hshort, hrefused⟩ | ⟨hlong, h, hread, hshows⟩
  · constructor
    · intro haccepted
      exact absurd haccepted.length (Nat.not_le.mpr hshort)
    · rintro ⟨-, h, hread, -⟩
      exact nomatch hrefused.symm.trans hread
  · constructor
    · intro haccepted
      obtain ⟨hmagic, hversion⟩ := hshows.magicOk_and_versionOk_iff.mpr haccepted.front
      have hvalid : Trailer.isValid password file = true :=
        Trailer.isValid_iff.mpr ⟨by omega, haccepted.trailer.symm⟩
      exact ⟨haccepted.ne_nil, h, hread, hvalid, hmagic, hversion⟩
    · rintro ⟨hpassword, h', hread', hvalid, hnumbers⟩
      obtain rfl := Except.ok.inj (hread.symm.trans hread')
      exact {
        ne_nil := hpassword
        length := hlong
        front := hshows.magicOk_and_versionOk_iff.mp hnumbers
        trailer := (Trailer.isValid_iff.mp hvalid).2.symm }

/-- What `verify` computes from a header and the file. -/
theorem checks_iff_isAccepted {password file : Bytes} {h : Header} (hpassword : password ≠ [])
    (hheader : Header.read file = .ok h) :
    (Trailer.isValid password file && h.magicOk && h.versionOk) = true
      ↔ IsAccepted password file := by
  rw [isAccepted_iff, Bool.and_eq_true, Bool.and_eq_true]
  constructor
  · intro hchecks
    obtain ⟨⟨hvalid, hmagic⟩, hversion⟩ := hchecks
    exact ⟨hpassword, h, hheader, hvalid, hmagic, hversion⟩
  · intro haccepted
    obtain ⟨-, h', hheader', hvalid, hmagic, hversion⟩ := haccepted
    obtain rfl := Except.ok.inj (hheader.symm.trans hheader')
    exact ⟨⟨hvalid, hmagic⟩, hversion⟩

/-- The numbers of a header never run over the end of a file. -/
theorem read_ne_truncatedNumber (file : Bytes) (offset : Nat) :
    Header.read file ≠ .error (.truncatedNumber offset) := by
  rcases Header.read_cases file with ⟨-, hrefused⟩ | ⟨-, h, hread, -⟩
  · rw [hrefused]
    exact nofun
  · rw [hread]
    exact nofun

/-! ## Running the command -/

/-- The last line printed says that the trailer is valid. -/
def ReportsIntact (s : Session) : Prop :=
  ∃ front word, (word = ascii "ok" ∨ word = Console.wrap Console.boldGreen (ascii "ok"))
    ∧ s.out = front ++ (ascii "integrity: " ++ word ++ [Session.lineFeed])

variable {s s' : Session} {o : VerifyOptions} {file : Bytes}

/-- A task that only looks at data takes nothing from the session's supply. -/
theorem run_task_liftM {α : Type} (x : Except Fault α) (s : Session) :
    (task (liftM x)).run.run s = (x.mapError Failure.fault, s.after s.supply) := run_task _ s

theorem run_task_liftM_of_ok {α : Type} {x : Except Fault α} {a : α} (h : x = .ok a)
    (s : Session) : (task (liftM x)).run.run s = (.ok a, s.after s.supply) := by
  rw [run_task_liftM, h]
  rfl

theorem run_task_liftM_of_error {α : Type} {x : Except Fault α} {f : Fault} (h : x = .error f)
    (s : Session) : (task (liftM x)).run.run s = (.error (.fault f), s.after s.supply) := by
  rw [run_task_liftM, h]
  rfl

/-- With a password and a header the command comes to a result. -/
theorem run_runVerify_of_header (hread : s.files.read o.input = .ok file)
    (hpassword : storePassword s o.password ≠ []) {h : Header}
    (hheader : Header.read file = .ok h) :
    ∃ s', (runVerify o).run.run s
        = (.ok (if Trailer.isValid (storePassword s o.password) file && h.magicOk && h.versionOk
            then success else failure), s')
      ∧ (Trailer.isValid (storePassword s o.password) file = true → ReportsIntact s') := by
  obtain ⟨⟨⟩, s₂, hshow, -⟩ := prints_showHeader h (s.after s.supply)
  unfold runVerify
  rw [Computation.run_bind_of_ok (run_requirePassword_eq_ok.mpr ⟨rfl, hpassword, rfl⟩),
    Computation.run_bind_of_ok (run_read_eq_ok.mpr ⟨hread, rfl⟩),
    Computation.run_bind_of_ok (run_task_liftM_of_ok hheader s), Computation.run_bind_of_ok hshow]
  dsimp only
  split
  next hvalid =>
    refine ⟨_, rfl, fun _ => ⟨s₂.out, _, ?_, rfl⟩⟩
    show (if (s₂.console.colors s₂.environment s₂.terminals .out).1 then _ else _) = _ ∨
      (if (s₂.console.colors s₂.environment s₂.terminals .out).1 then _ else _) = _
    split
    next => exact Or.inr rfl
    next => exact Or.inl rfl
  next hinvalid => exact ⟨_, rfl, fun hvalid => absurd hvalid hinvalid⟩

theorem run_runVerify_of_isAccepted (hread : s.files.read o.input = .ok file)
    (h : IsAccepted (storePassword s o.password) file) :
    ∃ s', (runVerify o).run.run s = (.ok success, s') ∧ ReportsIntact s' := by
  obtain ⟨hpassword, header, hheader, hvalid, hmagic, hversion⟩ := isAccepted_iff.mp h
  obtain ⟨s', hrun, hreport⟩ := run_runVerify_of_header hread hpassword hheader
  rw [hvalid, hmagic, hversion] at hrun
  exact ⟨s', hrun, hreport hvalid⟩

theorem run_runVerify_of_not_isAccepted (hread : s.files.read o.input = .ok file)
    (h : ¬ IsAccepted (storePassword s o.password) file) :
    (∃ s', (runVerify o).run.run s = (.ok failure, s'))
      ∨ ∃ f s', (runVerify o).run.run s = (.error f, s') := by
  -- without a password, and without a header, there is a failure
  rcases hrequire : (requirePassword o.password).run.run s with ⟨f | password, s₁⟩
  · exact Or.inr ⟨f, s₁, Computation.run_bind_of_error hrequire⟩
  obtain ⟨rfl, hpassword, rfl⟩ := run_requirePassword_eq_ok.mp hrequire
  change storePassword s₁ o.password ≠ [] at hpassword
  rcases Header.read_cases file with ⟨-, hrefused⟩ | ⟨-, header, hheader, -⟩
  · refine Or.inr ⟨.fault (.storeTooSmall file.length), s₁.after s₁.supply, ?_⟩
    unfold runVerify
    rw [Computation.run_bind_of_ok hrequire,
      Computation.run_bind_of_ok (run_read_eq_ok.mpr ⟨hread, rfl⟩)]
    exact Computation.run_bind_of_error (run_task_liftM_of_error hrefused s₁)
  · obtain ⟨s', hrun, -⟩ := run_runVerify_of_header hread hpassword hheader
    rw [if_neg (mt (checks_iff_isAccepted hpassword hheader).mp h)] at hrun
    exact Or.inl ⟨s', hrun⟩

/-! ## Command lines -/

variable {args : List Bytes} {input given : Bytes}

theorem storePassword_of_alike (h : s.Alike s') (given : Bytes) :
    storePassword s' given = storePassword s given := by
  unfold storePassword
  rw [h.environment, h.files]

theorem run_of_isVerify (hargs : IsVerify args input given) (s : Session) :
    run args s = ended ((runVerify ⟨input, given⟩).run.run (flagged args s)) := by
  obtain ⟨program, options, hline, hoptions, rfl⟩ := hargs
  have hread : VerifyOptions.read (input :: options)
      = .ok ⟨input, (valuesOf PackFlag.password.names options).getLastD []⟩ :=
    readPairs_of_arePasswords hoptions ⟨input, []⟩
  rw [run_eq hline]
  exact congrArg ended (Computation.run_liftM_bind_of_ok hread _)

/-- A file that is accepted is reported as intact, and any other one is not a success. -/
theorem run_verify_cases (hargs : IsVerify args input given)
    (hread : s.files.read input = .ok file) :
    (IsAccepted (storePassword s given) file
      → (run args s).1 = success ∧ ReportsIntact (run args s).2)
    ∧ (¬ IsAccepted (storePassword s given) file → (run args s).1 = failure) := by
  have halike := alike_flagged args s
  have hflagged : (flagged args s).files.read input = .ok file := by
    rw [halike.files]
    exact hread
  rw [run_of_isVerify hargs, ← storePassword_of_alike halike given]
  constructor
  · intro h
    obtain ⟨s', hrun, hreport⟩ := run_runVerify_of_isAccepted (o := ⟨input, given⟩) hflagged h
    rw [hrun]
    exact ⟨rfl, hreport⟩
  · intro h
    rcases run_runVerify_of_not_isAccepted (o := ⟨input, given⟩) hflagged h with
      ⟨s', hrun⟩ | ⟨f, s', hrun⟩
    · rw [hrun]
      rfl
    · rw [hrun]
      rfl

/-- What `pack` has made is accepted under the password of the store. -/
theorem Packs.isAccepted {o : PackOptions} {passwords : Passwords} {c : Contents}
    (h : Packs s o passwords c file s') : IsAccepted passwords.store file := by
  obtain ⟨used, hmade, -⟩ := h.made
  obtain ⟨hstorable, -, rfl, -⟩ := Contents.run_toFile_eq_ok.mp hmade
  obtain ⟨header, hheader, -, hmagic, hversion, -⟩ :=
    Contents.read_layout passwords s.now s.random hstorable.size
  exact isAccepted_iff.mpr ⟨h.store_ne_nil, header, hheader,
    Contents.isValid_layout passwords s.now s.random c, hmagic, hversion⟩

/-- `verify` ends with success exactly for the files that are accepted under the password of the
store, and else with a failure, which is never that a number runs over the end. In particular it
accepts what a run of `pack` with success has left in a regular file, and reports it as intact,
wherever the password is found to be the one under which it was packed. -/
theorem run_verify_accepts :
    (∀ {args : List Bytes} {input given file : Bytes} {s : Session},
      IsVerify args input given → s.files.read input = .ok file →
      ((run args s).1 = 0 ↔ IsAccepted (storePassword s given) file)
        ∧ (¬ IsAccepted (storePassword s given) file → (run args s).1 = 1))
    ∧ (∀ file offset, Header.read file ≠ .error (.truncatedNumber offset))
    ∧ ∀ {packing options : List Bytes} {program output : Bytes} {s s' : Session},
      withoutGlobalFlags (packing.map Bytes.untilNul) = program :: ascii "pack" :: options →
      output = (valuesOf PackFlag.output.names options).getLastD [] →
      s.files.IsRegularOrNew output → run packing s = (0, s') →
      ∀ {args : List Bytes} {given : Bytes} {s₂ : Session},
        IsVerify args output given → s₂.files = s'.files →
        storePassword s₂ given
          = storePassword s ((valuesOf PackFlag.password.names options).getLastD []) →
        (run args s₂).1 = 0 ∧ ReportsIntact (run args s₂).2 := by
  refine ⟨?_, read_ne_truncatedNumber, ?_⟩
  · intro args input given file s hargs hread
    obtain ⟨haccepted, hrefused⟩ := run_verify_cases hargs hread
    refine ⟨⟨fun hsuccess => ?_, fun h => (haccepted h).1⟩, hrefused⟩
    by_contra h
    rw [hrefused h] at hsuccess
    exact nomatch hsuccess
  · intro packing options program output s s' hline houtput hregular hrun args given s₂ hargs hfiles
      hpassword
    obtain ⟨o, passwords, c, file, hread, hpacks⟩ := exists_of_run_pack hline hrun
    obtain ⟨hoptions, -, -⟩ := PackOptions.extends_of_read hread
    -- the file that was made is the one that is found
    have hwritten := hpacks.written
    rw [hoptions.output, show PackOptions.initial.output = [] from rfl, ← houtput] at hwritten
    obtain ⟨-, -, hfound, -⟩ := FileTree.isWrittenAt_of_write hregular hwritten
    rw [← hfiles] at hfound
    have hsame : passwords.store = storePassword s₂ given := by
      rw [hpassword, hpacks.store, hoptions.password]
      rfl
    have haccepted := hpacks.isAccepted
    rw [hsame] at haccepted
    exact (run_verify_cases hargs hfound).1 haccepted

/-- The sample is accepted once it is packed, and a certificate is not. -/
theorem run_verify_accepts_sample :
    (∃ s', run sampleArgs sampleSession = (0, s')
      ∧ (run [ascii "jks", ascii "verify", ascii "k"] s').1 = 0
      ∧ ReportsIntact (run [ascii "jks", ascii "verify", ascii "k"] s').2)
    ∧ (run [ascii "jks", ascii "verify", ascii "c", ascii "-p", ascii "x"] sampleSession).1
      = 1 := by
  obtain ⟨haccepts, -, hpacked⟩ := run_verify_accepts
  refine ⟨?_, ?_⟩
  · have hpassword : storePassword (run sampleArgs sampleSession).2 []
        = storePassword sampleSession
            ((valuesOf PackFlag.password.names sampleOptions).getLastD []) := by
      decide +kernel
    have hargs : IsVerify [ascii "jks", ascii "verify", ascii "k"] (ascii "k") [] :=
      ⟨ascii "jks", [], by decide +kernel, .nil, rfl⟩
    exact ⟨_, run_sampleArgs, hpacked line_sampleArgs output_sampleOptions.symm
      isRegularOrNew_sample run_sampleArgs hargs rfl hpassword⟩
  · have hargs : IsVerify [ascii "jks", ascii "verify", ascii "c", ascii "-p", ascii "x"]
        (ascii "c") (ascii "x") :=
      ⟨ascii "jks", [ascii "-p", ascii "x"], by decide +kernel,
        .cons (ascii "x") (by decide +kernel) .nil, by decide +kernel⟩
    obtain ⟨-, hrefused⟩ := haccepts (s := sampleSession) hargs rfl
    refine hrefused fun haccepted => ?_
    have hfront := haccepted.front
    revert hfront
    decide +kernel

end Keystore.CommandLine
