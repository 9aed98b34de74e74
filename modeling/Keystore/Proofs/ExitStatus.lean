import Keystore.Proofs.CommandOutcome
import Keystore.Proofs.ErrorStream

/-!
# The exit status

A run ends with one of three statuses, and each is said here in terms of the command line without
its global flags and of what the command needs (`run_exit_status`):

* 2 if the line names no command that can be run: it has none or an unknown one, or it is `info`
  without a path (`IsMisuse`). All that happens then is that the usage is shown.
* 0 if the command succeeds (`Command.Succeeds`).
* 1 in all other cases. The failure is told in one line on the error stream, unless it is that of a
  file that `verify` could look at and rejects. No other run tells a failure.

A line of `pack` or `verify` that cannot be read is malformed as well (`IsMalformed`), but it is a
failure like others and has status 1 (`not_misuse_of_isMalformed`).
-/

namespace Keystore.CommandLine

open Shell
open Bytes (ascii)

/-- A command line without its global flags. Arguments end in front of a zero byte. -/
def plainLine (args : List Bytes) : List Bytes := withoutGlobalFlags (args.map Bytes.untilNul)

/-! ## Which command a line names -/

/-- The names of the commands. -/
def commandNames : List Bytes := ["pack", "verify", "info", "version"].map ascii

/-- A line that names no command that can be run. -/
inductive IsMisuse : List Bytes → Prop
  | empty : IsMisuse []
  | noCommand (program : Bytes) : IsMisuse [program]
  | unknownCommand (program : Bytes) {name : Bytes} (rest : List Bytes)
    (hname : name ∉ commandNames) : IsMisuse (program :: name :: rest)
  | infoWithoutPath (program : Bytes) : IsMisuse [program, ascii "info"]

/-- The command that a line names. -/
inductive Command.IsNamed : List Bytes → Command → Prop
  | pack (program : Bytes) (args : List Bytes) :
    IsNamed (program :: ascii "pack" :: args) (.pack args)
  | verify (program : Bytes) (args : List Bytes) :
    IsNamed (program :: ascii "verify" :: args) (.verify args)
  | info (program path : Bytes) (rest : List Bytes) :
    IsNamed (program :: ascii "info" :: path :: rest) (.info path)
  | version (program : Bytes) (rest : List Bytes) :
    IsNamed (program :: ascii "version" :: rest) .version
  | usage {line : List Bytes} (h : IsMisuse line) : IsNamed line .usage

theorem Command.ofArgs_of_notMem (program : Bytes) {name : Bytes} (rest : List Bytes)
    (h : name ∉ commandNames) : Command.ofArgs (program :: name :: rest) = .usage := by
  have hne : ∀ known ∈ commandNames, name ≠ known := fun known hknown heq => h (heq ▸ hknown)
  dsimp only [Command.ofArgs]
  rw [if_neg (hne _ (by decide)), if_neg (hne _ (by decide)), if_neg (hne _ (by decide)),
    if_neg (hne _ (by decide))]

/-- Every line names one command. -/
theorem Command.isNamed_iff {line : List Bytes} {c : Command} :
    IsNamed line c ↔ Command.ofArgs line = c := by
  constructor
  · intro h
    cases h with
    | pack => rfl
    | verify => rfl
    | info => rfl
    | version => rfl
    | usage h =>
      cases h with
      | empty => rfl
      | noCommand => rfl
      | unknownCommand program rest hname => exact ofArgs_of_notMem program rest hname
      | infoWithoutPath => rfl
  · intro h
    subst h
    match line with
    | [] => exact .usage .empty
    | [program] => exact .usage (.noCommand program)
    | program :: name :: rest =>
      by_cases hname : name ∈ commandNames
      · simp only [commandNames, List.map_cons, List.map_nil, List.mem_cons, List.not_mem_nil,
          or_false] at hname
        rcases hname with rfl | rfl | rfl | rfl
        · exact .pack program rest
        · exact .verify program rest
        · cases rest with
          | nil => exact .usage (.infoWithoutPath program)
          | cons path rest => exact .info program path rest
        · exact .version program rest
      · rw [ofArgs_of_notMem program rest hname]
        exact .usage (.unknownCommand program rest hname)

theorem Command.forall_isNamed_iff {line : List Bytes} {p : Command → Prop} :
    (∀ c, IsNamed line c → p c) ↔ p (Command.ofArgs line) := by
  simp only [isNamed_iff, forall_eq']

theorem Command.exists_isNamed_iff {line : List Bytes} {p : Command → Prop} :
    (∃ c, IsNamed line c ∧ p c) ↔ p (Command.ofArgs line) := by
  simp only [isNamed_iff, exists_eq_left']

theorem Command.isMisuse_iff {line : List Bytes} :
    IsMisuse line ↔ Command.ofArgs line = .usage := by
  rw [← isNamed_iff]
  constructor
  · exact .usage
  · intro h
    cases h with
    | usage h => exact h

/-! ## Malformed lines -/

/-- A line that does not say what to do: besides misuse, `verify` without a path, options of
`pack` or `verify` that are no row of their flags and values, and a row of `pack` without an output
or without an entry. -/
inductive IsMalformed : List Bytes → Prop
  | misuse {line : List Bytes} (h : IsMisuse line) : IsMalformed line
  | verifyWithoutPath (program : Bytes) : IsMalformed [program, ascii "verify"]
  | verifyOptions (program input : Bytes) {options : List Bytes}
    (h : ¬ ∃ pairs, IsRow options pairs ∧ ∀ p ∈ pairs, p.1 = .password) :
    IsMalformed (program :: ascii "verify" :: input :: options)
  | packOptions (program : Bytes) {args : List Bytes} (h : ¬ ∃ pairs, IsRow args pairs) :
    IsMalformed (program :: ascii "pack" :: args)
  | packNoOutput (program : Bytes) {args : List Bytes} {pairs : List (PackFlag × Bytes)}
    (hrow : IsRow args pairs) (h : (given .output pairs).getLastD [] = []) :
    IsMalformed (program :: ascii "pack" :: args)
  | packNoEntry (program : Bytes) {args : List Bytes} {pairs : List (PackFlag × Bytes)}
    (hrow : IsRow args pairs) (h : ∀ p ∈ pairs, p.1 ≠ .certificate ∧ p.1 ≠ .key) :
    IsMalformed (program :: ascii "pack" :: args)

/-- What a malformed line names does not succeed. -/
theorem IsMalformed.not_succeeds {line : List Bytes} {c : Command} {s : Session}
    (h : IsMalformed line) (hnamed : Command.IsNamed line c) : ¬ c.Succeeds s := by
  have hc := Command.isNamed_iff.mp hnamed
  intro hsucceeds
  cases h with
  | misuse h =>
    obtain rfl := (Command.isMisuse_iff.mp h).symm.trans hc
    exact nomatch hsucceeds
  | verifyWithoutPath program =>
    obtain rfl : .verify [] = c := hc
    cases hsucceeds with
    | verify hoptions => exact nomatch hoptions
  | @verifyOptions program input options h =>
    obtain rfl : .verify (input :: options) = c := hc
    cases hsucceeds with
    | verify hoptions =>
      cases hoptions with
      | intro _ hrow hpasswords => exact h ⟨_, hrow, hpasswords⟩
  | @packOptions program args h =>
    obtain rfl : .pack args = c := hc
    cases hsucceeds with
    | pack hrow => exact h ⟨_, hrow⟩
  | @packNoOutput program args pairs hrow h =>
    obtain rfl : .pack args = c := hc
    cases hsucceeds with
    | pack hrow' hreadable =>
      obtain ⟨path, hlast, hpath⟩ := hreadable.output
      rw [← hrow'.valuesOf, hrow.valuesOf] at hlast
      rw [List.getLastD_eq_getLast?, hlast] at h
      exact hpath h
  | @packNoEntry program args pairs hrow h =>
    obtain rfl : .pack args = c := hc
    cases hsucceeds with
    | @pack _ pairs' _ _ _ hrow' hreadable =>
      -- the entries of one row are those of the other
      have hnone : ∀ option, (∀ p ∈ pairs, p.1 ≠ option) → ∀ p ∈ pairs', p.1 ≠ option := by
        intro option hpairs
        rw [← given_eq_nil_iff, ← hrow'.valuesOf, hrow.valuesOf, given_eq_nil_iff]
        exact hpairs
      obtain ⟨p, hp, hcertificate | hkey⟩ := hreadable.entry
      · exact hnone .certificate (fun q hq => (h q hq).1) p hp hcertificate
      · exact hnone .key (fun q hq => (h q hq).2) p hp hkey

/-! ## The status of a run -/

/-- The status that a process has whose command has ended so. -/
def statusOf : Except Failure Nat → Nat
  | .ok status => status
  | .error _ => failure

theorem status_ended (x : Except Failure Nat × Session) : (ended x).1 = statusOf x.1 := by
  obtain ⟨f | status, s⟩ := x
  · rfl
  · rfl

/-- What the status says about a command, and when there is a failure to tell. -/
structure Command.Status (s : Session) (c : Command) (result : Except Failure Nat) : Prop where
  misuse : statusOf result = 2 ↔ c = .usage
  success : statusOf result = 0 ↔ c.Succeeds s
  failure : statusOf result = 1 ↔ c ≠ .usage ∧ ¬ c.Succeeds s
  told : (failureOf? result).isSome ↔ statusOf result = 1 ∧ ¬ c.Rejects s

theorem Command.Ends.status {c : Command} {result : Except Failure Nat} (h : c.Ends s result) :
    c.Status s result := by
  cases h with
  | succeeded h =>
    have husage : c ≠ .usage := fun heq => nomatch heq ▸ h
    exact ⟨iff_of_false nofun husage, iff_of_true rfl h,
      iff_of_false nofun fun hnot => hnot.2 h, iff_of_false nofun fun hnot => nomatch hnot.1⟩
  | rejected h =>
    have husage : c ≠ .usage := fun heq => nomatch heq ▸ h
    exact ⟨iff_of_false nofun husage, iff_of_false nofun h.not_succeeds,
      iff_of_true rfl ⟨husage, h.not_succeeds⟩, iff_of_false nofun fun hnot => hnot.2 h⟩
  | usage =>
    have hsucceeds : ¬ Succeeds s .usage := fun h => nomatch h
    exact ⟨iff_of_true rfl rfl, iff_of_false nofun hsucceeds,
      iff_of_false nofun fun hnot => hnot.1 rfl, iff_of_false nofun fun hnot => nomatch hnot.1⟩
  | failed f hsucceeds hrejects husage =>
    exact ⟨iff_of_false nofun husage, iff_of_false nofun hsucceeds,
      iff_of_true rfl ⟨husage, hsucceeds⟩, iff_of_true rfl ⟨rfl, hrejects⟩⟩

/-- What a run tells on the error stream. -/
structure Tells (args : List Bytes) (s : Session) (ns : List Notice) (told : Option Failure) :
    Prop where
  /-- Notices, and behind them a failure, if one is told. -/
  err : (run args s).2.err = s.err ++ printed ((flagged args s).isColored .err) ns told
  /-- One is told where there is one, but not for a file that is rejected. -/
  tells : told.isSome ↔ (run args s).1 = 1
    ∧ ∀ c, Command.IsNamed (plainLine args) c → ¬ c.Rejects s
  /-- There is one line for it, and else none, as long as no text goes over several lines. -/
  lines : (∀ n ∈ ns, Session.lineFeed ∉ n.text) →
    (∀ f, told = some f → Session.lineFeed ∉ f.shownWithKind) →
    (errorLines (printed ((flagged args s).isColored .err) ns told)).length
      = if told.isSome then 1 else 0

/-- How a run ends: its status, what that means, and what is told of it. -/
theorem run_exit_status (args : List Bytes) (s : Session) :
    ((run args s).1 = 2 ↔ IsMisuse (plainLine args))
    ∧ ((run args s).1 = 0 ↔ ∃ c, Command.IsNamed (plainLine args) c ∧ c.Succeeds s)
    ∧ ((run args s).1 = 1 ↔ ¬ IsMisuse (plainLine args)
      ∧ ∀ c, Command.IsNamed (plainLine args) c → ¬ c.Succeeds s)
    ∧ (IsMalformed (plainLine args) → ¬ IsMisuse (plainLine args) → (run args s).1 = 1)
    ∧ (IsMisuse (plainLine args) → (run args s).2 = (flagged args s).print usageText)
    ∧ ∃ ns told, Tells args s ns told := by
  have hline : withoutGlobalFlags (args.map Bytes.untilNul) = plainLine args := rfl
  have hrun := run_eq hline s
  obtain ⟨ns, herr⟩ := err_run hline s
  have hends := (Command.ends_run (flagged args s) (Command.ofArgs (plainLine args))).of_alike
    (alike_flagged args s)
  have hstatus : (run args s).1
      = statusOf ((Command.ofArgs (plainLine args)).run.run.run (flagged args s)).1 := by
    rw [hrun, status_ended]
  obtain ⟨hmisuse, hsuccess, hfailure, htold⟩ := hends.status
  rw [← hstatus, ← Command.isMisuse_iff] at hmisuse
  rw [← hstatus] at hsuccess htold
  rw [← hstatus, Ne, ← Command.isMisuse_iff] at hfailure
  refine ⟨hmisuse, ?_, ?_, fun hmalformed hnot => ?_, fun h => ?_, ns, _, herr, ?_,
    length_errorLines_printed _⟩
  · rw [hsuccess, Command.exists_isNamed_iff]
  · rw [hfailure, Command.forall_isNamed_iff]
  · exact hfailure.mpr ⟨hnot, hmalformed.not_succeeds (Command.isNamed_iff.mpr rfl)⟩
  · rw [hrun, Command.isMisuse_iff.mp h]
    rfl
  · rw [htold, Command.forall_isNamed_iff]

/-- A command line that asks for a check and does not say of what. -/
def verifyNothing : List Bytes := [ascii "jks", ascii "verify"]

theorem plainLine_verifyNothing : plainLine verifyNothing = [ascii "jks", ascii "verify"] := by
  decide +kernel

/-- The three statuses, the middle one of a line that is malformed. -/
theorem run_exit_status_sample :
    (∃ c, Command.IsNamed (plainLine sampleArgs) c ∧ c.Succeeds sampleSession)
      ∧ IsMalformed (plainLine verifyNothing) ∧ ¬ IsMisuse (plainLine verifyNothing)
      ∧ (run verifyNothing sampleSession).1 = 1
      ∧ (run [ascii "jks", ascii "unpack"] sampleSession).1 = 2 := by
  obtain ⟨-, hpacked, -⟩ := run_exit_status sampleArgs sampleSession
  obtain ⟨-, -, -, hmalformed, -⟩ := run_exit_status verifyNothing sampleSession
  obtain ⟨hmisuse, -⟩ := run_exit_status [ascii "jks", ascii "unpack"] sampleSession
  have hline : IsMalformed (plainLine verifyNothing) := by
    rw [plainLine_verifyNothing]
    exact .verifyWithoutPath _
  have hnot : ¬ IsMisuse (plainLine verifyNothing) := by
    rw [plainLine_verifyNothing, Command.isMisuse_iff]
    exact nofun
  have hunknown : plainLine [ascii "jks", ascii "unpack"] = [ascii "jks", ascii "unpack"] := by
    decide +kernel
  refine ⟨hpacked.mp (congrArg Prod.fst run_sampleArgs), hline, hnot, hmalformed hline hnot,
    hmisuse.mpr ?_⟩
  rw [hunknown]
  exact .unknownCommand _ _ (by decide)

/-- The status does not tell malformed lines from other failures: `verify` without a path ends
with 1. -/
theorem not_misuse_of_isMalformed :
    ¬ ∀ (args : List Bytes) (s : Session), (run args s).1 = 2 ↔ IsMalformed (plainLine args) := by
  intro hall
  have hstatus : (run verifyNothing sampleSession).1 = 1 := by
    decide +kernel
  have hmalformed : IsMalformed (plainLine verifyNothing) := by
    rw [plainLine_verifyNothing]
    exact .verifyWithoutPath _
  exact nomatch hstatus.symm.trans ((hall verifyNothing sampleSession).mpr hmalformed)

end Keystore.CommandLine
