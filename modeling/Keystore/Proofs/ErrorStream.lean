import Keystore.Proofs.Colours
import Keystore.Proofs.Console
import Keystore.Proofs.FilesKept

/-!
# What is printed on the error stream

Whatever a command does, it prints nothing on the error stream but notices, a line for each, and
it never changes whether the stream is coloured (`Session.Notified`). That is a property of
computations with one lemma for sequences and one for each operation, and from these it holds for
all commands (`Command.notifies_run`).

How the command ends is all that decides on the rest: a failure is told in one more line behind
the notices (`err_run`), which begins as no notice does.
-/

namespace Keystore

open CommandLine

/-! ## Sessions -/

namespace Session

variable {s s' s₁ : Session}

/-- On the way from one session to another notices were shown on the error stream, and nothing
else. The stream is coloured as before. -/
structure Notified (s s' : Session) : Prop where
  err : ∃ ns : List Notice, s'.err = s.err ++ ns.flatMap (noticeLine (s.isColored .err))
  isColored : s'.isColored .err = s.isColored .err

/-- Nothing was shown. -/
theorem Notified.of_silent (herr : s'.err = s.err)
    (hcolored : s'.isColored .err = s.isColored .err) : s.Notified s' :=
  ⟨⟨[], by rw [herr, List.flatMap_nil, List.append_nil]⟩, hcolored⟩

theorem Notified.refl (s : Session) : s.Notified s := .of_silent rfl rfl

theorem Notified.trans (h : s.Notified s₁) (h' : s₁.Notified s') : s.Notified s' := by
  obtain ⟨⟨ns, herr⟩, hcolored⟩ := h
  obtain ⟨⟨ms, herr'⟩, hcolored'⟩ := h'
  refine ⟨⟨ns ++ ms, ?_⟩, hcolored'.trans hcolored⟩
  rw [herr', herr, hcolored, List.flatMap_append, List.append_assoc]

theorem notified_report (s : Session) (n : Notice) : s.Notified (s.report n) :=
  ⟨⟨_, err_report s n⟩, isColored_report s .err n⟩

theorem notified_reportAll (s : Session) (ns : List Notice) : s.Notified (s.reportAll ns) := by
  unfold reportAll
  induction ns generalizing s with
  | nil => exact .refl s
  | cons n ns ih =>
    rw [List.foldl_cons]
    exact (notified_report s n).trans (ih (s.report n))

/-- A task shows the notices that it gives. -/
theorem notified_after (s : Session) (used : Supply) : s.Notified (s.after used) :=
  (Notified.of_silent rfl rfl : s.Notified { s with random := used.random }).trans
    (notified_reportAll _ used.notices)

end Session

/-! ## Computations -/

namespace Shell

open Session (Notified)

variable {α β : Type} {t : Shell α} {g : α → Shell β}

/-- Every run shows notices on the error stream, and nothing else. -/
def Notifies (t : Shell α) : Prop := ∀ s : Session, s.Notified (t.run.run s).2

theorem Notifies.bind (ht : Notifies t) (hg : ∀ a, Notifies (g a)) : Notifies (t >>= g) := by
  intro s
  have hfirst := ht s
  rw [Computation.run_bind]
  rcases hrun : t.run.run s with ⟨f | a, s₁⟩
  · rw [hrun] at hfirst
    exact hfirst
  · rw [hrun] at hfirst
    exact hfirst.trans (hg a s₁)

theorem notifies_pure (a : α) : Notifies (pure a) := fun s => .refl s

theorem notifies_throw (f : Failure) : Notifies (throw f : Shell α) := fun s => .refl s

theorem notifies_liftM (x : Except Failure α) : Notifies (liftM x : Shell α) := fun s => .refl s

theorem notifies_mapM {step : α → Shell β} (h : ∀ a, Notifies (step a)) (as : List α) :
    Notifies (as.mapM step) := by
  induction as with
  | nil => exact notifies_pure []
  | cons a as ih =>
    rw [List.mapM_cons]
    exact (h a).bind fun b => ih.bind fun bs => notifies_pure (b :: bs)

/-! ## Operations -/

theorem notifies_get : Notifies (get : Shell Session) := fun s => .refl s

theorem notifies_task (t : Task α) : Notifies (task t) := by
  intro s
  rw [run_task]
  exact Session.notified_after s _

theorem notifies_report (n : Notice) :
    Notifies (modify fun s : Session => s.report n : Shell Unit) :=
  fun s => Session.notified_report s n

theorem notifies_read (path : Bytes) : Notifies (read path) := by
  intro s
  rw [run_read]
  exact .refl s

theorem notifies_write (path data : Bytes) : Notifies (write path data) := by
  intro s
  rw [run_write]
  split
  next => exact .of_silent rfl rfl
  next => exact .refl s

theorem notifies_certificatesIn (path : Bytes) : Notifies (certificatesIn path) := by
  refine (notifies_read path).bind fun data => ?_
  split
  · exact notifies_throw _
  split
  · exact notifies_throw _
  · exact notifies_pure _

theorem notifies_keyIn (path : Bytes) : Notifies (keyIn path) := by
  refine (notifies_read path).bind fun data => ?_
  split
  · exact notifies_throw _
  split
  · exact notifies_pure _
  · exact notifies_throw _

end Shell

namespace CommandLine

open Shell
open Bytes (ascii)

/-! ## Parts of commands -/

theorem notifies_print (text : Bytes) : Notifies (print text) := fun _ => .of_silent rfl rfl

/-- A question about another stream. -/
theorem notifies_colored (text color : Bytes) : Notifies (colored text color) :=
  fun s => .of_silent rfl (Session.isColored_asked s .out .err)

theorem notifies_passwordOf (text : Bytes) : Notifies (passwordOf text) :=
  notifies_get.bind fun _ => notifies_pure _

theorem notifies_requirePassword (given : Bytes) : Notifies (requirePassword given) := by
  refine notifies_get.bind fun s => (notifies_passwordOf _).bind fun password => ?_
  split
  · exact notifies_throw _
  · exact notifies_pure _

/-- A line with a mark at its end, or without. -/
theorem notifies_marked (ok : Bool) (word color : Bytes) (text : Bytes → Bytes)
    {next : Shell Unit} (hnext : Notifies next) :
    Notifies (if ok = true then do
        let mark ← pure []
        print (text mark)
        next
      else do
        let mark ← colored word color
        print (text mark)
        next) := by
  split
  next => exact (notifies_pure _).bind fun mark => (notifies_print _).bind fun _ => hnext
  next => exact (notifies_colored _ _).bind fun mark => (notifies_print _).bind fun _ => hnext

theorem notifies_showHeader (h : Header) : Notifies (showHeader h) := by
  have hlines : ∀ entries length digest : Bytes,
      Notifies (do print entries; print length; print digest) := by
    intro entries length digest
    exact (notifies_print entries).bind fun _ => (notifies_print length).bind fun _ =>
      notifies_print digest
  unfold showHeader
  exact notifies_marked _ _ _ _ (notifies_marked _ _ _ _ (hlines _ _ _))

theorem notifies_loadCertificate (time : Instant) (source : Bytes × Bytes) :
    Notifies (loadCertificate time source) := by
  refine (notifies_certificatesIn source.2).bind fun certificates => ?_
  dsimp only
  split
  · exact (notifies_report _).bind fun _ => notifies_pure _
  · exact notifies_pure _

theorem notifies_loadKeyEntry (time : Instant) (source : KeySource) :
    Notifies (loadKeyEntry time source) := by
  refine (notifies_keyIn source.path).bind fun key => ?_
  dsimp only
  split
  · exact (notifies_pure _).bind fun chain => notifies_pure _
  · exact (notifies_certificatesIn _).bind fun chain => notifies_pure _

/-! ## Commands -/

theorem notifies_runPack (o : PackOptions) : Notifies (runPack o) := by
  refine (notifies_requirePassword o.password).bind fun store => ?_
  refine (notifies_mapM ?_ o.keyPasswords).bind fun own => ?_
  · intro a
    exact (notifies_passwordOf a.2).bind fun password => notifies_pure _
  refine (notifies_mapM (notifies_loadCertificate _) _).bind fun certificates => ?_
  refine (notifies_mapM (notifies_loadKeyEntry _) _).bind fun keys => ?_
  refine (notifies_task _).bind fun file => (notifies_write o.output file).bind fun _ => ?_
  exact (notifies_print _).bind fun _ => notifies_pure _

theorem notifies_runVerify (o : VerifyOptions) : Notifies (runVerify o) := by
  refine (notifies_requirePassword o.password).bind fun password => ?_
  refine (notifies_read o.input).bind fun file => (notifies_task _).bind fun header => ?_
  refine (notifies_showHeader header).bind fun _ => ?_
  dsimp only
  split
  · exact (notifies_colored _ _).bind fun word => (notifies_print _).bind fun _ => notifies_pure _
  · exact (notifies_colored _ _).bind fun word => (notifies_print _).bind fun _ => notifies_pure _

theorem notifies_runInfo (path : Bytes) : Notifies (runInfo path) := by
  refine (notifies_read path).bind fun file => (notifies_task _).bind fun header => ?_
  exact (notifies_showHeader header).bind fun _ => notifies_pure _

theorem Command.notifies_run (c : Command) : Notifies c.run := by
  cases c with
  | pack args => exact (notifies_liftM _).bind fun o => notifies_runPack o
  | verify args => exact (notifies_liftM _).bind fun o => notifies_runVerify o
  | info path => exact notifies_runInfo path
  | version => exact (notifies_print _).bind fun _ => notifies_pure _
  | usage => exact (notifies_print _).bind fun _ => notifies_pure _

/-! ## Command lines -/

/-- A mark in its colour, or without it. -/
def markIn (colored : Bool) (color mark : Bytes) : Bytes :=
  if colored then Console.wrap color mark else mark

/-- The line that tells a failure. -/
def errorLine (colored : Bool) (f : Failure) : Bytes :=
  markIn colored Console.boldRed (ascii "Error: ") ++ f.shownWithKind ++ [Session.lineFeed]

/-- What a run prints on the error stream: the lines of some notices, and behind them that of a
failure, if there was one. -/
def printed (colored : Bool) (ns : List Notice) (told : Option Failure) : Bytes :=
  ns.flatMap (Session.noticeLine colored) ++ told.elim [] (errorLine colored)

/-- The failure that a command ended with. -/
def failureOf? : Except Failure Nat → Option Failure
  | .ok _ => none
  | .error f => some f

theorem err_ended (x : Except Failure Nat × Session) :
    (ended x).2.err = x.2.err ++ (failureOf? x.1).elim [] (errorLine (x.2.isColored .err)) := by
  obtain ⟨f | status, s⟩ := x
  · rfl
  · exact (List.append_nil _).symm

theorem err_applyFlags (flags : List GlobalFlag) (s : Session) :
    (flags.foldl applyFlag s).err = s.err := by
  induction flags generalizing s with
  | nil => rfl
  | cons flag flags ih =>
    rw [List.foldl_cons, ih]
    cases flag with
    | verbose => rfl
    | noColor => rfl

/-- A run shows notices on the error stream and then tells how its command ended, if that was a
failure. -/
theorem err_run {args line : List Bytes}
    (hline : withoutGlobalFlags (args.map Bytes.untilNul) = line) (s : Session) :
    ∃ ns : List Notice, (run args s).2.err = s.err
      ++ printed ((flagged args s).isColored .err) ns
        (failureOf? ((Command.ofArgs line).run.run.run (flagged args s)).1) := by
  obtain ⟨⟨ns, herr⟩, hcolored⟩ := (Command.ofArgs line).notifies_run (flagged args s)
  refine ⟨ns, ?_⟩
  rw [run_eq hline, err_ended, herr, hcolored, printed, List.append_assoc]
  exact congrArg (· ++ _) (err_applyFlags _ s)

/-! ## Lines -/

/-- How a line begins that tells a failure, without colour and in each colour. -/
def errorMarks : List Bytes :=
  ascii "Error: " :: Console.palette.map fun color => Console.wrap color (ascii "Error: ")

/-- The lines of a text that tell failures. -/
def errorLines (text : Bytes) : List Bytes :=
  (text.splitOn Session.lineFeed).filter fun line => errorMarks.any (·.isPrefixOf line)

/-- The first line of a text and the other ones. -/
theorem errorLines_append {line : Bytes} (h : Session.lineFeed ∉ line) (text : Bytes) :
    errorLines (line ++ [Session.lineFeed] ++ text)
      = [line].filter (fun line => errorMarks.any (·.isPrefixOf line)) ++ errorLines text := by
  unfold errorLines
  rw [List.append_assoc, List.singleton_append, List.splitOn_append_cons_self,
    List.splitOn_eq_singleton h, List.filter_append]

/-- A notice tells no failure. -/
theorem errorLines_noticeLine (colored : Bool) {n : Notice} (h : Session.lineFeed ∉ n.text)
    (text : Bytes) : errorLines (Session.noticeLine colored n ++ text) = errorLines text := by
  have hline : Session.noticeLine colored n
      = markIn colored (Session.mark n.severity).2 (Session.mark n.severity).1 ++ n.text
        ++ [Session.lineFeed] := rfl
  have hfeed : Session.lineFeed
      ∉ markIn colored (Session.mark n.severity).2 (Session.mark n.severity).1 := by
    cases n.severity <;> cases colored <;> decide
  have hother : errorMarks.any (·.isPrefixOf
      (markIn colored (Session.mark n.severity).2 (Session.mark n.severity).1 ++ n.text))
        = false := by
    cases n.severity <;> cases colored <;> rfl
  rw [hline, errorLines_append (List.not_mem_append hfeed h), List.filter_singleton, hother]
  rfl

/-- A failure is told in one line. -/
theorem length_errorLines_errorLine (colored : Bool) {f : Failure}
    (h : Session.lineFeed ∉ f.shownWithKind) : (errorLines (errorLine colored f)).length = 1 := by
  have hfeed : Session.lineFeed ∉ markIn colored Console.boldRed (ascii "Error: ") := by
    cases colored <;> decide
  have hthis : errorMarks.any (·.isPrefixOf
      (markIn colored Console.boldRed (ascii "Error: ") ++ f.shownWithKind)) = true := by
    cases colored <;> rfl
  rw [← List.append_nil (errorLine colored f), errorLine,
    errorLines_append (List.not_mem_append hfeed h), List.filter_singleton, hthis]
  rfl

/-- Where no text goes over several lines, there is one line for a failure, and none without. -/
theorem length_errorLines_printed (colored : Bool) {ns : List Notice} {told : Option Failure}
    (hns : ∀ n ∈ ns, Session.lineFeed ∉ n.text)
    (htold : ∀ f, told = some f → Session.lineFeed ∉ f.shownWithKind) :
    (errorLines (printed colored ns told)).length = if told.isSome then 1 else 0 := by
  have hnotices : errorLines (printed colored ns told)
      = errorLines (told.elim [] (errorLine colored)) := by
    unfold printed
    induction ns with
    | nil => rfl
    | cons n ns ih =>
      obtain ⟨hn, hns⟩ := List.forall_mem_cons.mp hns
      rw [List.flatMap_cons, List.append_assoc, errorLines_noticeLine colored hn, ih hns]
  rw [hnotices]
  cases told with
  | none => rfl
  | some f => exact length_errorLines_errorLine colored (htold f rfl)

end CommandLine

end Keystore
