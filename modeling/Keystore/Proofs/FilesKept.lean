import Keystore.Proofs.PackCommand

/-!
# Which runs leave the files alone

Three properties of a computation, each weaker than the one before. It only prints if it
always comes to a result and leaves a session that is alike; it keeps the files if no run of it
changes them; and it fails cleanly if no run that ends in a failure does. What keeps the files may
come in front of what fails cleanly (`KeepsFiles.bind_failsCleanly`), and what only prints behind
it (`FailsCleanly.bind`). That is the shape of `pack`: all reading and making, then the output,
then a line of text.

So a failure leaves the files as they were, and so does any command but `pack`. A run of `pack`
with success changes one regular file or adds one, and what is in it comes from the files as they
were (`run_files`).
-/

namespace Keystore

open CommandLine

namespace Shell

variable {α β : Type} {t : Shell α} {g : α → Shell β}

/-- Every run comes to a result, and all that changes is what was printed and what is known of
the console. -/
def Prints (t : Shell α) : Prop := ∀ s : Session, ∃ a s', t.run.run s = (.ok a, s') ∧ s.Alike s'

/-- No run changes the files. -/
def KeepsFiles (t : Shell α) : Prop := ∀ s : Session, (t.run.run s).2.files = s.files

/-- No run that ends in a failure changes the files. -/
def FailsCleanly (t : Shell α) : Prop :=
  ∀ s f s', t.run.run s = (.error f, s') → s'.files = s.files

theorem Prints.keepsFiles (h : Prints t) : KeepsFiles t := by
  intro s
  obtain ⟨a, s', hrun, halike⟩ := h s
  rw [hrun]
  exact halike.files

theorem KeepsFiles.failsCleanly (h : KeepsFiles t) : FailsCleanly t := by
  intro s f s' hrun
  have hfiles := h s
  rw [hrun] at hfiles
  exact hfiles

/-! ## Sequences -/

theorem Prints.bind (ht : Prints t) (hg : ∀ a, Prints (g a)) : Prints (t >>= g) := by
  intro s
  obtain ⟨a, s₁, hfirst, halike⟩ := ht s
  obtain ⟨b, s₂, hrest, halike'⟩ := hg a s₁
  exact ⟨b, s₂, (Computation.run_bind_of_ok hfirst).trans hrest, halike.trans halike'⟩

theorem KeepsFiles.bind (ht : KeepsFiles t) (hg : ∀ a, KeepsFiles (g a)) :
    KeepsFiles (t >>= g) := by
  intro s
  have hfiles := ht s
  rw [Computation.run_bind]
  rcases hrun : t.run.run s with ⟨f | a, s₁⟩
  · rw [hrun] at hfiles
    exact hfiles
  · rw [hrun] at hfiles
    exact (hg a s₁).trans hfiles

theorem KeepsFiles.bind_failsCleanly (ht : KeepsFiles t) (hg : ∀ a, FailsCleanly (g a)) :
    FailsCleanly (t >>= g) := by
  intro s f s' hrun
  rcases Computation.run_bind_eq_error.mp hrun with hfirst | ⟨a, s₁, hfirst, hrest⟩
  · exact ht.failsCleanly s f s' hfirst
  · have hfiles := ht s
    rw [hfirst] at hfiles
    exact (hg a s₁ f s' hrest).trans hfiles

theorem FailsCleanly.bind (ht : FailsCleanly t) (hg : ∀ a, Prints (g a)) :
    FailsCleanly (t >>= g) := by
  intro s f s' hrun
  rcases Computation.run_bind_eq_error.mp hrun with hfirst | ⟨a, s₁, -, hrest⟩
  · exact ht s f s' hfirst
  · obtain ⟨b, s₂, hb, -⟩ := hg a s₁
    exact nomatch congrArg Prod.fst (hb.symm.trans hrest)

theorem prints_pure (a : α) : Prints (pure a) := fun s => ⟨a, s, rfl, .refl s⟩

theorem keepsFiles_pure (a : α) : KeepsFiles (pure a) := (prints_pure a).keepsFiles

theorem keepsFiles_throw (f : Failure) : KeepsFiles (throw f : Shell α) := fun _ => rfl

theorem keepsFiles_liftM (x : Except Failure α) : KeepsFiles (liftM x : Shell α) := fun _ => rfl

theorem keepsFiles_mapM {step : α → Shell β} (h : ∀ a, KeepsFiles (step a)) (as : List α) :
    KeepsFiles (as.mapM step) := by
  induction as with
  | nil => exact keepsFiles_pure []
  | cons a as ih =>
    rw [List.mapM_cons]
    exact (h a).bind fun b => ih.bind fun bs => keepsFiles_pure (b :: bs)

/-! ## Operations -/

theorem prints_get : Prints (get : Shell Session) := fun s => ⟨s, s, rfl, .refl s⟩

theorem keepsFiles_task (t : Task α) : KeepsFiles (task t) := by
  intro s
  rw [run_task]
  exact (Session.alike_after s _).files

theorem keepsFiles_read (path : Bytes) : KeepsFiles (read path) := by
  intro s
  rw [run_read]

theorem keepsFiles_certificatesIn (path : Bytes) : KeepsFiles (certificatesIn path) := by
  refine (keepsFiles_read path).bind fun data => ?_
  split
  · exact keepsFiles_throw _
  split
  · exact keepsFiles_throw _
  · exact keepsFiles_pure _

theorem keepsFiles_keyIn (path : Bytes) : KeepsFiles (keyIn path) := by
  refine (keepsFiles_read path).bind fun data => ?_
  split
  · exact keepsFiles_throw _
  split
  · exact keepsFiles_pure _
  · exact keepsFiles_throw _

/-- Writing changes the files only where it succeeds. -/
theorem failsCleanly_write (path data : Bytes) : FailsCleanly (write path data) := by
  intro s f s' hrun
  rw [run_write] at hrun
  split at hrun
  · exact nomatch congrArg Prod.fst hrun
  · obtain ⟨-, rfl⟩ := Prod.mk.inj hrun
    rfl

end Shell

namespace CommandLine

open Shell
open Bytes (ascii)

/-! ## Parts of commands -/

theorem prints_print (text : Bytes) : Prints (print text) :=
  fun s => ⟨(), s.print text, rfl, rfl, rfl, rfl, rfl, rfl, rfl⟩

theorem prints_colored (text color : Bytes) : Prints (colored text color) :=
  fun s => ⟨_, (s.paint text color .out).2, rfl, rfl, rfl, rfl, rfl, rfl, rfl⟩

theorem prints_passwordOf (text : Bytes) : Prints (passwordOf text) :=
  prints_get.bind fun _ => prints_pure _

theorem prints_showHeader (h : Header) : Prints (showHeader h) := by
  have hlines : ∀ version entries length digest : Bytes,
      Prints (do print version; print entries; print length; print digest) := by
    intro version entries length digest
    refine (prints_print version).bind fun _ => (prints_print entries).bind fun _ => ?_
    exact (prints_print length).bind fun _ => prints_print digest
  unfold showHeader
  dsimp only
  split
  next =>
    refine (prints_pure _).bind fun bad => (prints_print _).bind fun _ => ?_
    split
    next => exact (prints_pure _).bind fun unsupported => hlines _ _ _ _
    next => exact (prints_colored _ _).bind fun unsupported => hlines _ _ _ _
  next =>
    refine (prints_colored _ _).bind fun bad => (prints_print _).bind fun _ => ?_
    split
    next => exact (prints_pure _).bind fun unsupported => hlines _ _ _ _
    next => exact (prints_colored _ _).bind fun unsupported => hlines _ _ _ _

theorem keepsFiles_requirePassword (given : Bytes) : KeepsFiles (requirePassword given) := by
  refine prints_get.keepsFiles.bind fun s => ?_
  refine (prints_passwordOf _).keepsFiles.bind fun password => ?_
  split
  · exact keepsFiles_throw _
  · exact keepsFiles_pure _

theorem keepsFiles_loadCertificate (time : Instant) (source : Bytes × Bytes) :
    KeepsFiles (loadCertificate time source) := by
  refine (keepsFiles_certificatesIn source.2).bind fun certificates => ?_
  dsimp only
  split
  · intro s
    exact (Session.alike_report s _).files
  · exact keepsFiles_pure _

theorem keepsFiles_loadKeyEntry (time : Instant) (source : KeySource) :
    KeepsFiles (loadKeyEntry time source) := by
  refine (keepsFiles_keyIn source.path).bind fun key => ?_
  dsimp only
  split
  · exact (keepsFiles_pure _).bind fun chain => keepsFiles_pure _
  · exact (keepsFiles_certificatesIn _).bind fun chain => keepsFiles_pure _

/-! ## Commands -/

/-- Everything that can fail comes before the output, or is the output. -/
theorem failsCleanly_runPack (o : PackOptions) : FailsCleanly (runPack o) := by
  refine (keepsFiles_requirePassword o.password).bind_failsCleanly fun store => ?_
  refine (keepsFiles_mapM ?_ o.keyPasswords).bind_failsCleanly fun own => ?_
  · intro a
    exact ((prints_passwordOf a.2).bind fun password => prints_pure _).keepsFiles
  refine (keepsFiles_mapM (keepsFiles_loadCertificate _) _).bind_failsCleanly fun certificates => ?_
  refine (keepsFiles_mapM (keepsFiles_loadKeyEntry _) _).bind_failsCleanly fun keys => ?_
  refine (keepsFiles_task _).bind_failsCleanly fun file => ?_
  exact (failsCleanly_write o.output file).bind fun _ =>
    (prints_print _).bind fun _ => prints_pure _

theorem keepsFiles_runVerify (o : VerifyOptions) : KeepsFiles (runVerify o) := by
  refine (keepsFiles_requirePassword o.password).bind fun password => ?_
  refine (keepsFiles_read o.input).bind fun file => (keepsFiles_task _).bind fun header => ?_
  refine Prints.keepsFiles ((prints_showHeader header).bind fun _ => ?_)
  dsimp only
  split
  · exact (prints_colored _ _).bind fun word => (prints_print _).bind fun _ => prints_pure _
  · exact (prints_colored _ _).bind fun word => (prints_print _).bind fun _ => prints_pure _

theorem keepsFiles_runInfo (path : Bytes) : KeepsFiles (runInfo path) := by
  refine (keepsFiles_read path).bind fun file => (keepsFiles_task _).bind fun header => ?_
  exact ((prints_showHeader header).bind fun _ => prints_pure _).keepsFiles

theorem Command.keepsFiles {c : Command} (h : ∀ args, c ≠ .pack args) : KeepsFiles c.run := by
  cases c with
  | pack args => exact absurd rfl (h args)
  | verify args => exact (keepsFiles_liftM _).bind fun o => keepsFiles_runVerify o
  | info path => exact keepsFiles_runInfo path
  | version => exact ((prints_print _).bind fun _ => prints_pure _).keepsFiles
  | usage => exact ((prints_print _).bind fun _ => prints_pure _).keepsFiles

theorem Command.failsCleanly_pack (args : List Bytes) : FailsCleanly (Command.pack args).run :=
  (keepsFiles_liftM _).bind_failsCleanly fun o => failsCleanly_runPack o

/-- Only one command is `pack`. -/
theorem Command.exists_of_ofArgs_eq_pack {line rest : List Bytes}
    (h : Command.ofArgs line = .pack rest) : ∃ program, line = program :: ascii "pack" :: rest := by
  unfold Command.ofArgs at h
  split at h
  next program name more =>
    by_cases hname : name = ascii "pack"
    · rw [if_pos hname] at h
      obtain rfl := Command.pack.inj h
      exact ⟨program, by rw [hname]⟩
    · rw [if_neg hname] at h
      split_ifs at h
      split at h
      · exact nomatch h
      · exact nomatch h
  next => exact nomatch h

/-! ## Command lines -/

/-- A session with the global flags of a command line applied. -/
def flagged (args : List Bytes) (s : Session) : Session :=
  ((args.map Bytes.untilNul).filterMap globalFlag?).foldl applyFlag s

theorem alike_flagged (args : List Bytes) (s : Session) : s.Alike (flagged args s) :=
  alike_applyFlags _ s

/-- How a process ends whose command has ended so. -/
def ended : Except Failure Nat × Session → Nat × Session
  | (.ok status, s) => (status, s)
  | (.error f, s) => (failure, s.printMarked (ascii "Error: ") Console.boldRed f.shownWithKind)

theorem files_ended (x : Except Failure Nat × Session) : (ended x).2.files = x.2.files := by
  obtain ⟨f | status, s⟩ := x
  · rfl
  · rfl

theorem run_eq {args line : List Bytes}
    (hline : withoutGlobalFlags (args.map Bytes.untilNul) = line)
    (s : Session) :
    run args s = ended ((Command.ofArgs line).run.run.run (flagged args s)) := by
  subst hline
  rfl

variable {args : List Bytes} {s s' : Session} {status : Nat}

theorem files_of_run_of_not_pack (hrun : run args s = (status, s'))
    (h : ∀ program rest,
      withoutGlobalFlags (args.map Bytes.untilNul) ≠ program :: ascii "pack" :: rest) :
    s'.files = s.files := by
  have hcommand : ∀ rest,
      Command.ofArgs (withoutGlobalFlags (args.map Bytes.untilNul)) ≠ .pack rest := by
    intro rest heq
    obtain ⟨program, hline⟩ := Command.exists_of_ofArgs_eq_pack heq
    exact h program rest hline
  calc s'.files = (run args s).2.files := by rw [hrun]
    _ = _ := by rw [run_eq rfl, files_ended]
    _ = (flagged args s).files := Command.keepsFiles hcommand (flagged args s)
    _ = s.files := (alike_flagged args s).files

theorem files_of_run_of_ne_success (hrun : run args s = (status, s')) (h : status ≠ success) :
    s'.files = s.files := by
  by_cases hpack : ∃ program rest,
      withoutGlobalFlags (args.map Bytes.untilNul) = program :: ascii "pack" :: rest
  · obtain ⟨program, rest, hline⟩ := hpack
    rw [run_eq hline] at hrun
    rcases hresult : (Command.ofArgs (program :: ascii "pack" :: rest)).run.run.run
      (flagged args s) with ⟨f | status₁, s₁⟩
    · rw [hresult] at hrun
      obtain ⟨-, rfl⟩ := Prod.mk.inj hrun
      exact (Command.failsCleanly_pack rest _ f s₁ hresult).trans (alike_flagged args s).files
    · -- a result of this command is success
      rw [hresult] at hrun
      obtain ⟨rfl, -⟩ := Prod.mk.inj hrun
      obtain ⟨o, s₂, -, hpacked⟩ := Computation.run_bind_eq_ok.mp hresult
      exact absurd (exists_of_runPack hpacked).1 h
  · exact files_of_run_of_not_pack hrun fun program rest hline => hpack ⟨program, rest, hline⟩

/-- A run that does not end with success, or is of another command than `pack`, leaves the
files as they were. A run of `pack` that ends with success writes the one file that its output
names, if that is a regular file or a new one, and the file holds what the arguments asked for
when the run began; all other locations and paths are as before. If the output is a device,
nothing changes. -/
theorem run_files (hrun : run args s = (status, s')) :
    ((status ≠ 0 ∨ ∀ program rest,
        withoutGlobalFlags (args.map Bytes.untilNul) ≠ program :: ascii "pack" :: rest) →
      s'.files = s.files)
    ∧ ∀ program rest,
      withoutGlobalFlags (args.map Bytes.untilNul) = program :: ascii "pack" :: rest →
      status = 0 →
      (s.files.IsRegularOrNew ((valuesOf PackFlag.output.names rest).getLastD []) →
        ∃ l passwords c file,
          s.files.target? ((valuesOf PackFlag.output.names rest).getLastD []) = some l
          ∧ IsPacked s rest passwords c file
          ∧ s'.files.read ((valuesOf PackFlag.output.names rest).getLastD []) = .ok file
          ∧ s.files.IsWrittenAt l file s'.files)
      ∧ (¬ s.files.IsRegularOrNew ((valuesOf PackFlag.output.names rest).getLastD []) →
        s'.files = s.files) := by
  refine ⟨?_, ?_⟩
  · intro h
    rcases h with hstatus | hline
    · exact files_of_run_of_ne_success hrun hstatus
    · exact files_of_run_of_not_pack hrun hline
  · intro program rest hline hstatus
    subst hstatus
    obtain ⟨o, passwords, c, file, hread, hpacks⟩ := exists_of_run_pack hline hrun
    obtain ⟨hoptions, -, -⟩ := PackOptions.extends_of_read hread
    have hwritten := hpacks.written
    rw [hoptions.output, show PackOptions.initial.output = [] from rfl] at hwritten
    refine ⟨fun houtput => ?_, fun houtput => FileTree.eq_of_write houtput hwritten⟩
    obtain ⟨l, htarget, hfound, hat⟩ := FileTree.isWrittenAt_of_write houtput hwritten
    exact ⟨l, passwords, c, file, htarget, hpacks.isPacked hoptions, hfound, hat⟩

/-! ## A sample -/

theorem line_sampleArgs : withoutGlobalFlags (sampleArgs.map Bytes.untilNul)
    = ascii "jks" :: ascii "pack" :: sampleOptions := by
  decide +kernel

theorem run_sampleArgs :
    run sampleArgs sampleSession = (0, (run sampleArgs sampleSession).2) := by
  have hstatus : (run sampleArgs sampleSession).1 = 0 := by
    decide +kernel
  exact Prod.ext hstatus rfl

/-- The sample is packed into the file of its own key. -/
theorem output_sampleOptions :
    (valuesOf PackFlag.output.names sampleOptions).getLastD [] = ascii "k" := by
  decide +kernel

theorem isRegularOrNew_sample : sampleSession.files.IsRegularOrNew (ascii "k") :=
  ⟨[ascii "k"], by decide +kernel, Or.inr ⟨_, rfl⟩⟩

/-- A run that packs into one of its own inputs, and one that does not know its command. -/
theorem run_files_sample :
    (∃ s' l passwords c file, run sampleArgs sampleSession = (0, s')
      ∧ IsPacked sampleSession sampleOptions passwords c file
      ∧ s'.files.read (ascii "k") = .ok file
      ∧ sampleSession.files.IsWrittenAt l file s'.files)
    ∧ ∃ s', run [ascii "jks", ascii "unpack"] sampleSession = (2, s')
      ∧ s'.files = sampleSession.files := by
  refine ⟨?_, ?_⟩
  · have houtput := isRegularOrNew_sample
    rw [← output_sampleOptions] at houtput
    obtain ⟨hwritten, -⟩ := (run_files run_sampleArgs).2 _ _ line_sampleArgs rfl
    obtain ⟨l, passwords, c, file, -, hpacked, hfound, hat⟩ := hwritten houtput
    rw [output_sampleOptions] at hfound
    exact ⟨_, l, passwords, c, file, run_sampleArgs, hpacked, hfound, hat⟩
  · have hrun : run [ascii "jks", ascii "unpack"] sampleSession
        = (2, sampleSession.print usageText) := rfl
    exact ⟨_, hrun, (run_files hrun).1 (Or.inl (by decide))⟩

end CommandLine

end Keystore
