import Keystore.Proofs.Diagnostics
import Keystore.Proofs.PackGrammar

/-!
# Which argument becomes the value of an option

Global flags may stand anywhere among the arguments, and they are taken out before flags are
paired with values. So the value of an option is not always the argument behind its flag: it is
the first one there that is no global flag (`Receives`). A row none of whose values is a global
flag is taken as it stands; in another one values are lost, and what stands behind them is paired
anew.

`pack` and `verify` run with what their options receive, and fail if these receive nothing that
can be read (`runs_received`). That this is not what the row says is shown by a password `-v`
(`not_runs_row`).
-/

namespace Keystore.CommandLine

open Bytes (ascii)

/-! ## Pairs among global flags -/

/-- What options receive from arguments among which global flags may stand: the first argument
behind their flag that is none. -/
inductive Receives : List Bytes → List (PackFlag × Bytes) → Prop
  | nil : Receives [] []
  | skip {flag : Bytes} (hflag : flag ∈ globalFlags) {rest : List Bytes}
    {pairs : List (PackFlag × Bytes)} (hrest : Receives rest pairs) : Receives (flag :: rest) pairs
  | pair {option : PackFlag} {flag value : Bytes} (between : List Bytes) {rest : List Bytes}
    {pairs : List (PackFlag × Bytes)} (hflag : flag ∈ option.names)
    (hbetween : ∀ a ∈ between, a ∈ globalFlags) (hvalue : value ∉ globalFlags)
    (hrest : Receives rest pairs) :
    Receives (flag :: (between ++ value :: rest)) ((option, value) :: pairs)

variable {args front between rest : List Bytes} {pairs : List (PackFlag × Bytes)}

theorem isNone_globalFlag?_iff {arg : Bytes} :
    (globalFlag? arg).isNone = true ↔ arg ∉ globalFlags := by
  constructor
  · intro hnone hmem
    revert hnone
    revert hmem arg
    decide
  · intro h
    have hverbose : ¬ (arg = ascii "--verbose" ∨ arg = ascii "-v") := by
      rintro (rfl | rfl)
      · exact h (by decide)
      · exact h (by decide)
    have hcolor : arg ≠ ascii "--no-color" := by
      rintro rfl
      exact h (by decide)
    rw [globalFlag?, if_neg hverbose, if_neg hcolor]
    rfl

/-- No option of `pack` is a global flag. -/
theorem PackFlag.notMem_globalFlags {option : PackFlag} {flag : Bytes} (h : flag ∈ option.names) :
    flag ∉ globalFlags := by
  revert h flag
  cases option <;> decide

theorem withoutGlobalFlags_append (front rest : List Bytes) :
    withoutGlobalFlags (front ++ rest) = withoutGlobalFlags front ++ withoutGlobalFlags rest :=
  List.filter_append front rest

theorem withoutGlobalFlags_of_forall_mem (h : ∀ a ∈ between, a ∈ globalFlags) :
    withoutGlobalFlags between = [] := by
  refine List.filter_eq_nil_iff.mpr fun a ha hnone => ?_
  exact isNone_globalFlag?_iff.mp hnone (h a ha)

theorem withoutGlobalFlags_cons {arg : Bytes} (h : arg ∉ globalFlags) (rest : List Bytes) :
    withoutGlobalFlags (arg :: rest) = arg :: withoutGlobalFlags rest :=
  List.filter_cons_of_pos (isNone_globalFlag?_iff.mpr h)

/-- The first argument that is kept, and what stands in front of it. -/
theorem exists_of_withoutGlobalFlags_eq_cons {arg : Bytes} {kept : List Bytes}
    (h : withoutGlobalFlags args = arg :: kept) :
    ∃ between rest, args = between ++ arg :: rest ∧ (∀ a ∈ between, a ∈ globalFlags)
      ∧ arg ∉ globalFlags ∧ withoutGlobalFlags rest = kept := by
  obtain ⟨between, rest, rfl, hbetween, harg, hrest⟩ := List.filter_eq_cons_iff.mp h
  refine ⟨between, rest, rfl, ?_, isNone_globalFlag?_iff.mp harg, hrest⟩
  intro a ha
  by_contra hnot
  exact hbetween a ha (isNone_globalFlag?_iff.mpr hnot)

theorem Receives.skips (h : ∀ a ∈ between, a ∈ globalFlags) (hrest : Receives rest pairs) :
    Receives (between ++ rest) pairs := by
  induction between with
  | nil => exact hrest
  | cons a between ih =>
    obtain ⟨ha, hbetween⟩ := List.forall_mem_cons.mp h
    exact .skip ha (ih hbetween)

/-- Options receive what stands in their row once the global flags are taken out. -/
theorem receives_iff : Receives args pairs ↔ IsRow (withoutGlobalFlags args) pairs := by
  constructor
  · intro h
    induction h with
    | nil => exact .nil
    | @skip flag hflag rest pairs _ ih =>
      have hnone : withoutGlobalFlags [flag] = [] :=
        withoutGlobalFlags_of_forall_mem (List.forall_mem_singleton.mpr hflag)
      rw [← List.singleton_append, withoutGlobalFlags_append, hnone]
      exact ih
    | @pair option flag value between rest pairs hflag hbetween hvalue _ ih =>
      rw [withoutGlobalFlags_cons (PackFlag.notMem_globalFlags hflag), withoutGlobalFlags_append,
        withoutGlobalFlags_of_forall_mem hbetween, withoutGlobalFlags_cons hvalue]
      exact .cons value hflag ih
  · intro h
    -- along the row: each argument that is kept has only global flags in front of it
    generalize hkept : withoutGlobalFlags args = kept at h
    induction h generalizing args with
    | nil =>
      have hall : ∀ a ∈ args, a ∈ globalFlags := by
        intro a ha
        by_contra hnot
        exact List.filter_eq_nil_iff.mp hkept a ha (isNone_globalFlag?_iff.mpr hnot)
      rw [← List.append_nil args]
      exact .skips hall .nil
    | @cons option flag value rest pairs hflag _ ih =>
      obtain ⟨before, behind, rfl, hbefore, -, hbehind⟩ :=
        exists_of_withoutGlobalFlags_eq_cons hkept
      obtain ⟨between, more, rfl, hbetween, hvalue, hmore⟩ :=
        exists_of_withoutGlobalFlags_eq_cons hbehind
      exact .skips hbefore (.pair between hflag hbetween hvalue (ih hmore))

/-- A row none of whose values is a global flag is received as it stands. -/
theorem IsRow.receives (h : IsRow args pairs) (hvalues : ∀ p ∈ pairs, p.2 ∉ globalFlags) :
    Receives args pairs := by
  induction h with
  | nil => exact .nil
  | @cons option flag value rest pairs hflag _ ih =>
    obtain ⟨hvalue, hrest⟩ := List.forall_mem_cons.mp hvalues
    exact .pair [] hflag (by simp) hvalue (ih hrest)

/-! ## Options of `verify` -/

/-- The pairs of `verify` are passwords, and the last one counts. -/
theorem VerifyOptions.readPairs_eq_ok_iff {o o' : VerifyOptions} :
    readPairs o args = .ok o' ↔ ∃ pairs, IsRow args pairs ∧ (∀ p ∈ pairs, p.1 = .password)
      ∧ o' = { o with password := (given .password pairs).getLastD o.password } := by
  have hnames : ∀ flag : Bytes, (flag = ascii "-p" ∨ flag = ascii "--password")
      ↔ flag ∈ PackFlag.password.names := by
    intro flag
    simp [PackFlag.names]
  induction o, args using readPairs.induct with
  | case1 o =>
    constructor
    · intro h
      exact ⟨[], .nil, by simp, (Except.ok.inj h).symm⟩
    · rintro ⟨pairs, ⟨⟩, -, rfl⟩
      rfl
  | case2 o flag hflag =>
    rw [readPairs, if_pos hflag]
    constructor
    · intro h
      cases h
    · rintro ⟨pairs, hrow, -⟩
      cases hrow
  | case3 o flag hflag value rest ih =>
    have hstep :
        readPairs o (flag :: value :: rest) = readPairs { o with password := value } rest := by
      rw [readPairs, if_pos hflag]
    rw [hstep]
    refine ih.trans ⟨?_, ?_⟩
    · rintro ⟨pairs, hrow, hpasswords, rfl⟩
      refine ⟨(.password, value) :: pairs, .cons value ((hnames flag).mp hflag) hrow,
        List.forall_mem_cons.mpr ⟨rfl, hpasswords⟩, ?_⟩
      rw [given_cons, if_pos rfl, List.getLastD_cons]
    · rintro ⟨pairs, hrow, hpasswords, rfl⟩
      obtain ⟨others, rfl, hothers⟩ := (isRow_cons_iff ((hnames flag).mp hflag)).mp hrow
      refine ⟨others, hothers, (List.forall_mem_cons.mp hpasswords).2, ?_⟩
      rw [given_cons, if_pos rfl, List.getLastD_cons]
  | case4 o flag rest hflag =>
    have hstep : readPairs o (flag :: rest) = .error (.unknownFlag flag) := by
      unfold readPairs
      exact if_neg hflag
    rw [hstep]
    constructor
    · intro h
      cases h
    · rintro ⟨pairs, hrow, hpasswords, -⟩
      cases hrow with
      | @cons option _ value _ _ hmem _ =>
        obtain rfl : option = .password := (List.forall_mem_cons.mp hpasswords).1
        exact absurd ((hnames flag).mpr hmem) hflag

/-! ## Command lines -/

/-- A command line carries out a computation, with the global flags applied before. -/
def Runs (args : List Bytes) (command : Shell Nat) : Prop :=
  ∀ s, run args s = ended (command.run.run (flagged args s))

/-- A command that starts with reading its options runs with them, or fails. -/
theorem runs_of_read {α : Type} {x : Except Failure α} {command : α → Shell Nat}
    (h : (Command.ofArgs (withoutGlobalFlags (args.map Bytes.untilNul))).run
      = liftM x >>= command) :
    (∃ o, x = .ok o ∧ Runs args (command o)) ∨ (∀ o, x ≠ .ok o) ∧ ∃ f, Runs args (throw f) := by
  rcases hx : x with f | o
  · refine .inr ⟨fun o => nofun, f, fun s => ?_⟩
    rw [run_eq rfl, h, Computation.run_liftM_bind_of_error hx]
    rfl
  · refine .inl ⟨o, rfl, fun s => ?_⟩
    rw [run_eq rfl, h, Computation.run_liftM_bind_of_ok hx]

/-- `pack` and `verify` run with the options that their arguments stand for when the value of an
option is the first argument behind its flag that is no global flag, and fail when there are no
such options. This is the argument right behind the flag where no value is a global flag. -/
theorem runs_received (hargs : args.map Bytes.untilNul = front ++ rest) :
    (∀ program, withoutGlobalFlags front = [program, ascii "pack"] →
      (∃ pairs o, Receives rest pairs ∧ IsReadable pairs ∧ o.Holds pairs ∧ Runs args (runPack o))
      ∨ (¬ ∃ pairs, Receives rest pairs ∧ IsReadable pairs) ∧ ∃ f, Runs args (throw f))
    ∧ (∀ program input, withoutGlobalFlags front = [program, ascii "verify", input] →
      (∃ pairs, Receives rest pairs ∧ (∀ p ∈ pairs, p.1 = .password)
        ∧ Runs args (runVerify ⟨input, (given .password pairs).getLastD []⟩))
      ∨ (¬ ∃ pairs, Receives rest pairs ∧ ∀ p ∈ pairs, p.1 = .password)
        ∧ ∃ f, Runs args (throw f))
    ∧ ∀ pairs, IsRow rest pairs → (∀ p ∈ pairs, p.2 ∉ globalFlags) → Receives rest pairs := by
  have hline : withoutGlobalFlags (args.map Bytes.untilNul)
      = withoutGlobalFlags front ++ withoutGlobalFlags rest := by
    rw [hargs, withoutGlobalFlags_append]
  refine ⟨?_, ?_, fun pairs hrow => hrow.receives⟩
  · intro program hfront
    rw [hfront] at hline
    have hcommand : (Command.ofArgs (withoutGlobalFlags (args.map Bytes.untilNul))).run
        = liftM (PackOptions.read (withoutGlobalFlags rest)) >>= runPack := by
      rw [hline]
      rfl
    rcases runs_of_read hcommand with ⟨o, hread, hruns⟩ | ⟨hno, hruns⟩
    · obtain ⟨pairs, hrow, hreadable, hholds⟩ := PackOptions.read_eq_ok_iff.mp hread
      exact .inl ⟨pairs, o, receives_iff.mpr hrow, hreadable, hholds, hruns⟩
    · refine .inr ⟨?_, hruns⟩
      rintro ⟨pairs, hreceives, hreadable⟩
      obtain ⟨o, hread⟩ :=
        PackOptions.exists_read_of_isReadable (receives_iff.mp hreceives) hreadable
      exact hno o hread
  · intro program input hfront
    rw [hfront] at hline
    have hcommand : (Command.ofArgs (withoutGlobalFlags (args.map Bytes.untilNul))).run
        = liftM (VerifyOptions.readPairs ⟨input, []⟩ (withoutGlobalFlags rest)) >>= runVerify := by
      rw [hline]
      rfl
    rcases runs_of_read hcommand with ⟨o, hread, hruns⟩ | ⟨hno, hruns⟩
    · obtain ⟨pairs, hrow, hpasswords, rfl⟩ := VerifyOptions.readPairs_eq_ok_iff.mp hread
      exact .inl ⟨pairs, receives_iff.mpr hrow, hpasswords, hruns⟩
    · refine .inr ⟨?_, hruns⟩
      rintro ⟨pairs, hreceives, hpasswords⟩
      exact hno _ (VerifyOptions.readPairs_eq_ok_iff.mpr
        ⟨pairs, receives_iff.mp hreceives, hpasswords, rfl⟩)

/-! ## A password that is a global flag -/

/-- A row in which the password, given twice, is a global flag. -/
def flagRow : List Bytes :=
  ["-o", "out.jks", "--cert", "a=c", "--timestamp", "1500000000000", "-p", "-v",
    "--password", "-v"].map ascii

/-- A command line that packs with that row. -/
def flagLine : List Bytes := ascii "jks" :: ascii "pack" :: flagRow

/-- The pairs of that row. -/
def flagPairs : List (PackFlag × Bytes) :=
  [(.output, ascii "out.jks"), (.certificate, ascii "a=c"), (.timestamp, ascii "1500000000000"),
    (.password, ascii "-v"), (.password, ascii "-v")]

/-- What its options receive: the name of an option as the password. -/
def receivedPairs : List (PackFlag × Bytes) :=
  [(.output, ascii "out.jks"), (.certificate, ascii "a=c"), (.timestamp, ascii "1500000000000"),
    (.password, ascii "--password")]

/-- The options that these pairs stand for. -/
def flagOptions : PackOptions :=
  ⟨ascii "out.jks", ascii "-v", [(ascii "a", ascii "c")], [], [], some (.ofMillis 1500000000000)⟩

theorem isRow_flagRow : IsRow flagRow flagPairs :=
  .cons _ (by decide) (.cons _ (by decide) (.cons _ (by decide) (.cons _ (by decide)
    (.cons _ (by decide) .nil))))

theorem receives_flagRow : Receives flagRow receivedPairs :=
  .pair [] (by decide) (by simp) (by decide) <|
  .pair [] (by decide) (by simp) (by decide) <|
  .pair [] (by decide) (by simp) (by decide) <|
  .pair [ascii "-v"] (by decide) (by decide) (by decide) <|
  .skip (by decide) .nil

/-- Whatever passwords are given, the other options are fine. -/
theorem isReadable_of_passwords {passwords : List (PackFlag × Bytes)}
    (h : ∀ p ∈ passwords, p.1 = .password) :
    IsReadable ((.output, ascii "out.jks") :: (.certificate, ascii "a=c")
      :: (.timestamp, ascii "1500000000000") :: passwords) := by
  have hassigns : Assigns (ascii "a=c") (ascii "a", ascii "c") := by
    decide
  have htime : Instant.parse (ascii "1500000000000") = .ok (.ofMillis 1500000000000) := by
    decide +kernel
  have hvalues : ∀ p ∈ passwords, p.1.Takes p.2 := by
    rintro ⟨option, value⟩ hp
    obtain rfl : option = .password := h _ hp
    trivial
  have hpaths : given .output passwords = [] :=
    given_eq_nil_iff.mpr fun p hp => by simp [h p hp]
  refine ⟨?_, ⟨ascii "out.jks", ?_, by decide⟩, ⟨_, .tail _ (.head _), .inl rfl⟩⟩
  · simp only [List.forall_mem_cons]
    exact ⟨trivial, ⟨_, hassigns⟩, ⟨_, htime⟩, hvalues⟩
  · simp [given_cons, hpaths]

theorem holds_flagPairs : flagOptions.Holds flagPairs where
  output := rfl
  password := rfl
  certificates := .cons (by decide) .nil
  keys := .nil
  keyPasswords := .nil
  time := by decide +kernel

/-- The password is lost, and the name of the next option is taken for it. -/
theorem runs_received_flagLine :
    flagLine.map Bytes.untilNul = [ascii "jks", ascii "pack"] ++ flagRow
      ∧ ∃ o, o.password = ascii "--password" ∧ Runs flagLine (runPack o) := by
  have hargs : flagLine.map Bytes.untilNul = [ascii "jks", ascii "pack"] ++ flagRow := by
    decide +kernel
  have hreadable : IsReadable receivedPairs := isReadable_of_passwords (by decide)
  refine ⟨hargs, ?_⟩
  rcases (runs_received hargs).1 (ascii "jks") (by decide) with
    ⟨pairs, o, hreceives, -, hholds, hruns⟩ | ⟨hno, -⟩
  · refine ⟨o, ?_, hruns⟩
    rw [hholds.password, ← (receives_iff.mp hreceives).valuesOf]
    decide +kernel
  · exact absurd ⟨receivedPairs, receives_flagRow, hreadable⟩ hno

/-- A row is not always packed with the options that it stands for. -/
theorem not_runs_row :
    ¬ ∀ (rest : List Bytes) (pairs : List (PackFlag × Bytes)) (o : PackOptions),
      rest.map Bytes.untilNul = rest → IsRow rest pairs → IsReadable pairs → o.Holds pairs →
      Runs (ascii "jks" :: ascii "pack" :: rest) (runPack o) := by
  intro hall
  have hwhole : flagRow.map Bytes.untilNul = flagRow := by
    decide +kernel
  have hruns := hall flagRow flagPairs flagOptions hwhole isRow_flagRow
    (isReadable_of_passwords (by decide)) holds_flagPairs sampleSession
  -- the two passwords make different files
  have hfile := congrArg (fun x => x.2.files.read (ascii "out.jks")) hruns
  revert hfile
  decide +kernel

end Keystore.CommandLine
