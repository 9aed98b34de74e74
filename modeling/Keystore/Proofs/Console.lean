import Keystore.Proofs.Shell

/-!
# What the console answers

Whether a stream is coloured, and whether notices of low urgency are shown, are questions to a
session (`Session.isColored`, `Session.isVerbose`). A question is answered from a setting that
was made, from what was found out before, or from the environment; the streams on one terminal
share what was found out (`Console.known`). To ask is to write the answer down
(`Session.asked`, `Session.checked`), and to ask again, whatever the stream, does not change
any answer as long as the environment stays the same.

Showing a notice asks on the way. `Session.err_reportAll` says what is to be read on the error
stream after some notices: a line for each that is shown, all of them in the same colours.
-/

namespace Keystore

/-- The notices that are shown in any case. -/
def Notice.isWarning : Notice → Bool
  | emptyChain _ => true
  | extraCertificates _ _ _ => true
  | remark .warning _ => true
  | moved _ _ => false
  | clockUsed _ => false
  | written _ _ _ => false
  | remark .info _ => false

theorem Notice.severity_eq (n : Notice) :
    n.severity = if n.isWarning then .warning else .info := by
  cases n with
  | moved | clockUsed | emptyChain | written | extraCertificates => rfl
  | remark severity => cases severity <;> rfl

/-- The two terminals of a process. -/
inductive Terminal where
  | out
  | err
deriving DecidableEq

/-- The terminal that a stream is on. The error and log streams share one. -/
def Stream.terminal? : Stream → Option Terminal
  | .out => some .out
  | .err | .log => some .err
  | .other => none

/-- Whether a terminal is there, or else a file. -/
def Terminals.present (t : Terminals) : Terminal → Bool
  | .out => t.out
  | .err => t.err

namespace Console

/-- What was found out about the colours of a terminal. -/
def known (c : Console) : Terminal → Option Bool
  | .out => c.outColors
  | .err => c.errColors

/-- The settings with what was found out about the colours of a terminal. -/
def learn (c : Console) (on : Bool) : Terminal → Console
  | .out => { c with outColors := some on }
  | .err => { c with errColors := some on }

variable (c : Console) (env : Environment) (t : Terminals) (on : Bool) (d d' : Terminal)

@[simp] theorem forced_learn : (c.learn on d).forced = c.forced := by
  cases d <;> rfl

@[simp] theorem verbose_learn : (c.learn on d).verbose = c.verbose := by
  cases d <;> rfl

theorem known_learn : (c.learn on d).known d' = if d = d' then some on else c.known d' := by
  cases d <;> cases d' <;> rfl

/-! ## Colours -/

/-- A setting that was made answers for all streams, and then nothing is found out. Without one
a stream on a terminal is coloured as was found out before, or else now; any other is not. -/
theorem colors_eq (stream : Stream) : c.colors env t stream = match c.forced, stream.terminal? with
    | some on, _ => (on, c)
    | none, some d => ((c.known d).getD (wanted env (t.present d)),
        c.learn ((c.known d).getD (wanted env (t.present d))) d)
    | none, none => (false, c) := by
  obtain ⟨forced, _, _, _⟩ := c
  cases forced with
  | none =>
    cases stream with
    | out | err | log | other => rfl
  | some on => rfl

/-- Colours are wanted on a terminal unless one of two variables is against it. -/
theorem wanted_eq_true {terminal : Bool} :
    wanted env terminal = true ↔ env.get (Bytes.ascii "NO_COLOR") = []
      ∧ env.switch (Bytes.ascii "JKSPACK_NO_COLOR") false = false ∧ terminal = true := by
  unfold wanted
  simp [and_assoc]

end Console

namespace Session

/-! ## Questions -/

/-- Whether a stream is coloured. -/
def isColored (s : Session) (stream : Stream) : Bool :=
  (s.console.colors s.environment s.terminals stream).1

/-- Whether notices of low urgency are shown. -/
def isVerbose (s : Session) : Bool := (s.console.verbosity s.environment).1

/-- The session after the question whether a stream is coloured. -/
def asked (s : Session) (stream : Stream) : Session :=
  { s with console := (s.console.colors s.environment s.terminals stream).2 }

/-- The session after the question whether notices of low urgency are shown. -/
def checked (s : Session) : Session :=
  { s with console := (s.console.verbosity s.environment).2 }

variable (s : Session) (stream stream' : Stream)

/-- What a session answers about colours. -/
theorem isColored_eq : s.isColored stream = match s.console.forced, stream.terminal? with
    | some on, _ => on
    | none, some d =>
      (s.console.known d).getD (Console.wanted s.environment (s.terminals.present d))
    | none, none => false := by
  unfold isColored
  rw [Console.colors_eq]
  split
  next => rfl
  next => rfl
  next => rfl

/-- Where nothing was set, a question about a stream on a terminal writes down the answer. -/
theorem console_asked : (s.asked stream).console = match s.console.forced, stream.terminal? with
    | none, some d => s.console.learn
        ((s.console.known d).getD (Console.wanted s.environment (s.terminals.present d))) d
    | _, _ => s.console := by
  unfold asked
  dsimp only
  rw [Console.colors_eq]
  rcases s.console.forced with _ | on
  · rcases stream.terminal? with _ | d
    · rfl
    · rfl
  · rfl

theorem forced_asked : (s.asked stream).console.forced = s.console.forced := by
  rw [console_asked]
  split
  next => exact Console.forced_learn ..
  next => rfl

theorem verbose_asked : (s.asked stream).console.verbose = s.console.verbose := by
  rw [console_asked]
  split
  next => exact Console.verbose_learn ..
  next => rfl

/-- A question about a stream is one about its terminal, and about no other. -/
theorem known_asked (d : Terminal) : (s.asked stream).console.known d
    = if s.console.forced = none ∧ stream.terminal? = some d
      then some ((s.console.known d).getD (Console.wanted s.environment (s.terminals.present d)))
      else s.console.known d := by
  rw [console_asked]
  split
  next d' hforced hstream =>
    rw [Console.known_learn]
    by_cases hd : d' = d
    · subst hd
      rw [if_pos rfl, if_pos ⟨hforced, hstream⟩]
    · rw [if_neg hd, if_neg]
      rintro ⟨-, hsame⟩
      exact hd (Option.some.inj (hstream.symm.trans hsame))
  next hnot =>
    rw [if_neg]
    rintro ⟨hforced, hstream⟩
    exact hnot d hforced hstream

/-- A question about one stream changes no answer about another. -/
theorem isColored_asked : (s.asked stream).isColored stream' = s.isColored stream' := by
  rw [isColored_eq, isColored_eq, forced_asked]
  rcases hforced : s.console.forced with _ | on
  · rcases stream'.terminal? with _ | d
    · rfl
    · dsimp only
      rw [known_asked]
      split
      next => exact Option.getD_some
      next => rfl
  · rfl

theorem isVerbose_asked : (s.asked stream).isVerbose = s.isVerbose :=
  congrArg (fun verbose : Option Bool => verbose.getD _) (verbose_asked s stream)

theorem known_checked (d : Terminal) : s.checked.console.known d = s.console.known d := by
  cases d <;> rfl

theorem isColored_checked : s.checked.isColored stream = s.isColored stream := by
  rw [isColored_eq, isColored_eq]
  simp only [known_checked]
  rfl

theorem isVerbose_checked : s.checked.isVerbose = s.isVerbose := rfl

/-! ## Notices -/

/-- The line that shows a notice. -/
def noticeLine (colored : Bool) (n : Notice) : Bytes :=
  (if colored then Console.wrap (mark n.severity).2 (mark n.severity).1
    else (mark n.severity).1) ++ n.text ++ [lineFeed]

/-- The notices that are shown. -/
def shownNotices (verbose : Bool) (ns : List Notice) : List Notice :=
  if verbose then ns else ns.filter Notice.isWarning

/-- A warning is shown. -/
theorem report_of_warning {n : Notice} (h : n.isWarning = true) :
    s.report n
      = { s.asked .err with err := s.err ++ noticeLine (s.isColored .err) n } := by
  unfold report noticeLine
  rw [n.severity_eq, if_pos h]
  rfl

/-- Any other notice is shown on request. -/
theorem report_of_info {n : Notice} (h : n.isWarning = false) :
    s.report n = if s.isVerbose
      then { s.checked.asked .err with err := s.err ++ noticeLine (s.isColored .err) n }
      else s.checked := by
  rw [← isColored_checked]
  unfold report noticeLine
  rw [n.severity_eq, h]
  rfl

theorem isColored_report (n : Notice) : (s.report n).isColored stream = s.isColored stream := by
  cases hn : n.isWarning with
  | true =>
    rw [report_of_warning s hn]
    exact isColored_asked s .err stream
  | false =>
    rw [report_of_info s hn]
    split
    · exact (isColored_asked s.checked .err stream).trans (isColored_checked s stream)
    · exact isColored_checked s stream

theorem isVerbose_report (n : Notice) : (s.report n).isVerbose = s.isVerbose := by
  cases hn : n.isWarning with
  | true =>
    rw [report_of_warning s hn]
    exact isVerbose_asked s .err
  | false =>
    rw [report_of_info s hn]
    split
    · exact isVerbose_asked s.checked .err
    · exact isVerbose_checked s

theorem err_report (n : Notice) :
    (s.report n).err
      = s.err ++ (shownNotices s.isVerbose [n]).flatMap (noticeLine (s.isColored .err)) := by
  unfold shownNotices
  cases hn : n.isWarning with
  | true =>
    rw [report_of_warning s hn, List.filter_singleton, hn]
    simp
  | false =>
    rw [report_of_info s hn, List.filter_singleton, hn]
    cases s.isVerbose with
    | true => simp
    | false => simp [checked]

theorem shownNotices_append (verbose : Bool) (ns ms : List Notice) :
    shownNotices verbose (ns ++ ms) = shownNotices verbose ns ++ shownNotices verbose ms := by
  unfold shownNotices
  cases verbose with
  | true => rfl
  | false => exact List.filter_append ..

/-- Notices are shown in order, each in a line of its own. -/
theorem err_reportAll (ns : List Notice) :
    (s.reportAll ns).err
      = s.err ++ (shownNotices s.isVerbose ns).flatMap (noticeLine (s.isColored .err)) := by
  unfold reportAll
  induction ns generalizing s with
  | nil =>
    unfold shownNotices
    simp
  | cons n ns ih =>
    rw [List.foldl_cons, ih, isVerbose_report, isColored_report, err_report, List.append_assoc,
      ← List.flatMap_append, ← shownNotices_append, List.singleton_append]

end Session

end Keystore
