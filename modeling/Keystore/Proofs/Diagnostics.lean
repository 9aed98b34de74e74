import Keystore.Proofs.Colours
import Keystore.Proofs.Environment
import Keystore.Proofs.FilesKept

/-!
# Diagnostics do not influence results

How much is shown, and in which colours, depends on three variables, the terminals and two
global flags. Here two runs are compared that agree in everything else (`Session.Agree`): the
same files, clock and random bytes, the same environment outside these variables, and the same
text on the output stream apart from its colours. Nothing is assumed about terminals, settings
of the console, and the error stream.

The comparison is a property of computations (`Shell.Matches`): from sessions that agree two
computations end with the same failure or with related results, and in sessions that agree. It
has one lemma for sequences and one for each operation. A text that may be painted is the only
result that need not be the same, and it is printed behind a blank. From this all commands match
themselves, whole command lines too, and tasks see the supply only (`run_diagnostics`).
-/

namespace Keystore

open Bytes (ascii)

/-! ## Environments -/

namespace Environment

/-- The variables that say how much is shown, and in which colours. -/
def diagnosticNames : List Bytes :=
  ["JKSPACK_VERBOSE", "NO_COLOR", "JKSPACK_NO_COLOR"].map ascii

/-- Whether a line of the environment is about one of these variables. -/
def isDiagnostic (line : Bytes) : Bool :=
  diagnosticNames.any fun name => (valueIn? name line).isSome

/-- Environments that differ in these variables at most. -/
def Agree (e₁ e₂ : Environment) : Prop :=
  (e₁.lines.filter fun line => !isDiagnostic line)
    = e₂.lines.filter fun line => !isDiagnostic line

/-- The lines of other variables are not about these. -/
theorem findSome?_notDiagnostic {name : Bytes} (hname : equals ∉ name)
    (hother : name ∉ diagnosticNames) (lines : List Bytes) :
    (lines.filter fun line => !isDiagnostic line).findSome? (valueIn? name)
      = lines.findSome? (valueIn? name) := by
  refine findSome?_filter lines fun line hline => ?_
  rw [Bool.not_eq_false'] at hline
  obtain ⟨other, hmem, hsome⟩ := List.any_eq_true.mp hline
  have hnames : ∀ n ∈ diagnosticNames, equals ∉ n := by decide
  exact valueIn?_eq_none_of_ne hname (hnames other hmem) (fun h => hother (h ▸ hmem)) hsome

/-- All other variables have the same value. -/
theorem Agree.get {e₁ e₂ : Environment} (h : e₁.Agree e₂) (name : Bytes)
    (hname : equals ∉ name.untilNul) (hother : name.untilNul ∉ diagnosticNames) :
    e₁.get name = e₂.get name := by
  unfold Environment.get
  dsimp only
  rw [← findSome?_notDiagnostic hname hother, ← findSome?_notDiagnostic hname hother e₂.lines, h]

theorem Agree.home {e₁ e₂ : Environment} (h : e₁.Agree e₂) : e₁.home = e₂.home := by
  unfold Environment.home Environment.getD
  rw [h.get (ascii "HOME") (by decide) (by decide),
    h.get (ascii "USERPROFILE") (by decide) (by decide)]

end Environment

/-! ## Sessions -/

namespace Session

open Console (Screen ReadsAlike)

/-- Sessions that differ in what concerns diagnostics at most. Nothing is said of
terminals, settings of the console, and the error stream. -/
structure Agree (s₁ s₂ : Session) : Prop where
  environment : s₁.environment.Agree s₂.environment
  files : s₁.files = s₂.files
  now : s₁.now = s₂.now
  random : s₁.random = s₂.random
  explains : s₁.explains = s₂.explains
  out : Screen.blank.readAll s₁.out = Screen.blank.readAll s₂.out

variable {s₁ s₂ s₁' s₂' : Session}

theorem Agree.supply (h : s₁.Agree s₂) : s₁.supply = s₂.supply := by
  unfold Session.supply
  rw [h.now, h.random, h.explains]

/-- Whatever leaves the surroundings and the output stream alone keeps agreement. -/
theorem Agree.alike (h : s₁.Agree s₂) (h₁ : s₁.Alike s₁') (h₂ : s₂.Alike s₂')
    (hout₁ : s₁'.out = s₁.out) (hout₂ : s₂'.out = s₂.out) : s₁'.Agree s₂' where
  environment := by rw [h₁.environment, h₂.environment]; exact h.environment
  files := by rw [h₁.files, h₂.files, h.files]
  now := by rw [h₁.now, h₂.now, h.now]
  random := by rw [h₁.random, h₂.random, h.random]
  explains := by rw [h₁.explains, h₂.explains, h.explains]
  out := by rw [hout₁, hout₂, h.out]

theorem Agree.print (h : s₁.Agree s₂) {x y : Bytes} (hxy : ReadsAlike x y) :
    (s₁.print x).Agree (s₂.print y) where
  environment := h.environment
  files := h.files
  now := h.now
  random := h.random
  explains := h.explains
  out := by
    show Screen.blank.readAll (s₁.out ++ x) = Screen.blank.readAll (s₂.out ++ y)
    rw [Screen.readAll_append, Screen.readAll_append, h.out, hxy]

theorem Agree.report (h : s₁.Agree s₂) (n : Notice) : (s₁.report n).Agree (s₂.report n) :=
  h.alike (alike_report s₁ n) (alike_report s₂ n) (out_report s₁ n) (out_report s₂ n)

/-- What a task leaves, and the notices that it gave. -/
theorem Agree.after (h : s₁.Agree s₂) (used : Supply) : (s₁.after used).Agree (s₂.after used) := by
  have hrandom : Agree { s₁ with random := used.random } { s₂ with random := used.random } :=
    ⟨h.environment, h.files, h.now, rfl, h.explains, h.out⟩
  exact hrandom.alike (alike_after s₁ used) (alike_after s₂ used) (out_reportAll _ _)
    (out_reportAll _ _)

end Session

/-! ## Computations -/

namespace Shell

variable {α β γ δ : Type} {R : α → β → Prop} {Q : γ → δ → Prop}

/-- Two ends of computations: the same failure or related results, in sessions that agree. -/
inductive EndsAlike (R : α → β → Prop) :
    Except Failure α × Session → Except Failure β × Session → Prop
  | result {a : α} {b : β} {s₁ s₂ : Session} (hresult : R a b) (hs : s₁.Agree s₂) :
    EndsAlike R (.ok a, s₁) (.ok b, s₂)
  | failure (f : Failure) {s₁ s₂ : Session} (hs : s₁.Agree s₂) :
    EndsAlike R (.error f, s₁) (.error f, s₂)

/-- From sessions that agree two computations end alike. -/
def Matches (R : α → β → Prop) (t : Shell α) (u : Shell β) : Prop :=
  ∀ s₁ s₂ : Session, s₁.Agree s₂ → EndsAlike R (t.run.run s₁) (u.run.run s₂)

/-- A computation that does not depend on diagnostics. -/
abbrev Steady (t : Shell α) : Prop := Matches Eq t t

theorem Matches.bind {t : Shell α} {u : Shell β} {g : α → Shell γ} {k : β → Shell δ}
    (ht : Matches R t u) (hg : ∀ a b, R a b → Matches Q (g a) (k b)) :
    Matches Q (t >>= g) (u >>= k) := by
  intro s₁ s₂ hs
  have hends := ht s₁ s₂ hs
  rw [Computation.run_bind, Computation.run_bind]
  generalize t.run.run s₁ = x at hends ⊢
  generalize u.run.run s₂ = y at hends ⊢
  cases hends with
  | result hresult hs => exact hg _ _ hresult _ _ hs
  | failure f hs => exact .failure f hs

theorem Steady.bind {t : Shell α} {g : α → Shell γ} (ht : Steady t) (hg : ∀ a, Steady (g a)) :
    Steady (t >>= g) := by
  refine Matches.bind ht fun a b hab => ?_
  subst hab
  exact hg a

theorem matches_pure {a : α} {b : β} (h : R a b) : Matches R (pure a) (pure b) :=
  fun _ _ hs => .result h hs

theorem steady_pure (a : α) : Steady (pure a) := matches_pure rfl

theorem steady_throw (f : Failure) : Steady (throw f : Shell α) := fun _ _ hs => .failure f hs

/-- What does not touch the session ends as it does. -/
theorem steady_liftM (x : Except Failure α) : Steady (liftM x : Shell α) := by
  cases x with
  | error f => exact steady_throw f
  | ok a => exact steady_pure a

theorem steady_mapM {step : α → Shell γ} (h : ∀ a, Steady (step a)) (as : List α) :
    Steady (as.mapM step) := by
  induction as with
  | nil => exact steady_pure []
  | cons a as ih =>
    rw [List.mapM_cons]
    exact (h a).bind fun b => ih.bind fun bs => steady_pure (b :: bs)

/-- A change of the session that keeps agreement. -/
theorem steady_modify {f : Session → Session} {g : Session → Session}
    (h : ∀ s₁ s₂ : Session, s₁.Agree s₂ → (f s₁).Agree (g s₂)) :
    Matches Eq (modify f : Shell Unit) (modify g) :=
  fun s₁ s₂ hs => .result rfl (h s₁ s₂ hs)

/-! ## Operations -/

theorem matches_get : Matches Session.Agree (get : Shell Session) get :=
  fun _ _ hs => .result hs hs

/-- A task sees the supply only. -/
theorem run_task_of_supply {α : Type} (t : Task α) {s₁ s₂ : Session} (h : s₁.supply = s₂.supply) :
    ((task t).run.run s₁).1 = ((task t).run.run s₂).1
      ∧ ((task t).run.run s₁).2.random = ((task t).run.run s₂).2.random := by
  rw [run_task, run_task, h]
  exact ⟨rfl, (Session.alike_after s₁ _).random.trans (Session.alike_after s₂ _).random.symm⟩

theorem steady_task {α : Type} (t : Task α) : Steady (task t) := by
  intro s₁ s₂ hs
  rw [run_task, run_task, hs.supply]
  rcases t.run.run s₂.supply with ⟨f | a, used⟩
  · exact .failure _ (hs.after used)
  · exact .result rfl (hs.after used)

theorem steady_read (path : Bytes) : Steady (read path) := by
  intro s₁ s₂ hs
  rw [run_read, run_read, hs.files]
  rcases s₂.files.read path with r | data
  · exact .failure _ hs
  · exact .result rfl hs

theorem steady_write (path data : Bytes) : Steady (write path data) := by
  intro s₁ s₂ hs
  rw [run_write, run_write, hs.files]
  rcases s₂.files.write path data with r | files
  · exact .failure _ hs
  · exact .result rfl ⟨hs.environment, rfl, hs.now, hs.random, hs.explains, hs.out⟩

theorem steady_certificatesIn (path : Bytes) : Steady (certificatesIn path) := by
  refine (steady_read path).bind fun data => ?_
  split
  · exact steady_throw _
  split
  · exact steady_throw _
  · exact steady_pure _

theorem steady_keyIn (path : Bytes) : Steady (keyIn path) := by
  refine (steady_read path).bind fun data => ?_
  split
  · exact steady_throw _
  split
  · exact steady_pure _
  · exact steady_throw _

end Shell

namespace CommandLine

open Shell
open Console (Painted ReadsAlike palette)

/-! ## Parts of commands -/

theorem matches_print {x y : Bytes} (h : ReadsAlike x y) : Matches Eq (print x) (print y) :=
  steady_modify fun _ _ hs => hs.print h

theorem steady_print (text : Bytes) : Steady (print text) := matches_print (.refl text)

/-- A text in a colour is painted or not. -/
theorem matches_colored (text : Bytes) {color : Bytes} (h : color ∈ palette) :
    Matches (fun x y => Painted text x ∧ Painted text y) (colored text color)
      (colored text color) := by
  have hpainted : ∀ s : Session, Painted text (s.paint text color .out).1 := by
    intro s
    unfold Session.paint
    dsimp only
    split
    · exact .wrapped h
    · exact .bare
  intro s₁ s₂ hs
  exact .result ⟨hpainted s₁, hpainted s₂⟩
    ⟨hs.environment, hs.files, hs.now, hs.random, hs.explains, hs.out⟩

theorem steady_passwordOf (text : Bytes) : Steady (passwordOf text) := by
  refine matches_get.bind fun s₁ s₂ hs => matches_pure ?_
  unfold Password.ofText Password.candidate
  rw [hs.files, hs.environment.home]

theorem steady_requirePassword (given : Bytes) : Steady (requirePassword given) := by
  refine matches_get.bind fun s₁ s₂ hs => ?_
  dsimp only
  rw [hs.environment.get _ (by decide) (by decide)]
  refine (steady_passwordOf _).bind fun password => ?_
  split
  · exact steady_throw _
  · exact steady_pure _

/-- A mark that stands behind a number, with a blank in front. -/
theorem readsAlike_marked {text x y : Bytes} (hx : Painted text x) (hy : Painted text y)
    (htext : Console.escape ∉ text) (hnil : text ≠ []) :
    ReadsAlike (showHeader.marked x) (showHeader.marked y) := by
  have hsome : ∀ {x}, Painted text x → x ≠ [] := by
    intro x hx
    cases hx with
    | bare => exact hnil
    | wrapped h => exact List.append_ne_nil_of_right_ne_nil _ (by decide)
  unfold showHeader.marked
  rw [if_neg (hsome hx), if_neg (hsome hy)]
  exact Console.readsAlike_painted hx hy htext []

/-- A line of the header that is marked if something is wrong. -/
theorem steady_line (ok : Bool) {text : Bytes} (htext : Console.escape ∉ text) (hnil : text ≠ [])
    (front back : Bytes) {next : Shell Unit} (hnext : Steady next) :
    Steady (if ok = true then do
        let mark ← pure []
        print (front ++ showHeader.marked mark ++ back)
        next
      else do
        let mark ← colored text Console.red
        print (front ++ showHeader.marked mark ++ back)
        next) := by
  split
  next => exact (steady_pure _).bind fun mark => (steady_print _).bind fun _ => hnext
  next =>
    refine (matches_colored text (by decide)).bind fun x y hxy => ?_
    have hline : ReadsAlike (front ++ showHeader.marked x ++ back)
        (front ++ showHeader.marked y ++ back) :=
      ((ReadsAlike.refl front).append (readsAlike_marked hxy.1 hxy.2 htext hnil)).append
        (.refl back)
    exact (matches_print hline).bind fun _ _ _ => hnext

theorem steady_showHeader (h : Header) : Steady (showHeader h) := by
  have hlines : ∀ entries length digest : Bytes,
      Steady (do print entries; print length; print digest) := by
    intro entries length digest
    exact (steady_print entries).bind fun _ => (steady_print length).bind fun _ =>
      steady_print digest
  unfold showHeader
  exact steady_line _ (by decide) (by decide) _ _
    (steady_line _ (by decide) (by decide) _ _ (hlines _ _ _))

theorem steady_loadCertificate (time : Instant) (source : Bytes × Bytes) :
    Steady (loadCertificate time source) := by
  refine (steady_certificatesIn source.2).bind fun certificates => ?_
  dsimp only
  split
  · exact Steady.bind (steady_modify fun _ _ hs => hs.report _) fun _ => steady_pure _
  · exact steady_pure _

theorem steady_loadKeyEntry (time : Instant) (source : KeySource) :
    Steady (loadKeyEntry time source) := by
  refine (steady_keyIn source.path).bind fun key => ?_
  dsimp only
  split
  · exact (steady_pure _).bind fun chain => steady_pure _
  · exact (steady_certificatesIn _).bind fun chain => steady_pure _

/-! ## Commands -/

theorem steady_runPack (o : PackOptions) : Steady (runPack o) := by
  refine (steady_requirePassword o.password).bind fun store => ?_
  refine (steady_mapM ?_ o.keyPasswords).bind fun own => ?_
  · intro a
    exact (steady_passwordOf a.2).bind fun password => steady_pure _
  refine (steady_mapM (steady_loadCertificate _) _).bind fun certificates => ?_
  refine (steady_mapM (steady_loadKeyEntry _) _).bind fun keys => ?_
  refine (steady_task _).bind fun file => (steady_write o.output file).bind fun _ => ?_
  exact (steady_print _).bind fun _ => steady_pure _

/-- The answer of `verify` is a word in a colour. -/
theorem steady_answer {text color : Bytes} (hcolor : color ∈ palette)
    (htext : Console.escape ∉ text) (status : Nat) :
    Steady (do
      let word ← colored text color
      print (ascii "integrity: " ++ word ++ [Session.lineFeed])
      return status) := by
  refine (matches_colored text hcolor).bind fun x y hxy => ?_
  have hline : ReadsAlike (ascii "integrity: " ++ x ++ [Session.lineFeed])
      (ascii "integrity: " ++ y ++ [Session.lineFeed]) :=
    (Console.readsAlike_painted hxy.1 hxy.2 htext (ascii "integrity:")).append (.refl _)
  exact (matches_print hline).bind fun _ _ _ => steady_pure _

theorem steady_runVerify (o : VerifyOptions) : Steady (runVerify o) := by
  refine (steady_requirePassword o.password).bind fun password => ?_
  refine (steady_read o.input).bind fun file => (steady_task _).bind fun header => ?_
  refine (steady_showHeader header).bind fun _ => ?_
  dsimp only
  split
  · exact steady_answer (by decide) (by decide) _
  · exact steady_answer (by decide) (by decide) _

theorem steady_runInfo (path : Bytes) : Steady (runInfo path) := by
  refine (steady_read path).bind fun file => (steady_task _).bind fun header => ?_
  exact (steady_showHeader header).bind fun _ => steady_pure _

theorem Command.steady (c : Command) : Steady c.run := by
  cases c with
  | pack args => exact (steady_liftM _).bind fun o => steady_runPack o
  | verify args => exact (steady_liftM _).bind fun o => steady_runVerify o
  | info path => exact steady_runInfo path
  | version => exact (steady_print _).bind fun _ => steady_pure _
  | usage => exact (steady_print _).bind fun _ => steady_pure _

/-! ## Command lines -/

/-- The arguments that are global flags. -/
def globalFlags : List Bytes := ["-v", "--verbose", "--no-color"].map ascii

/-- A command line with any number of global flags put in anywhere. -/
inductive WithFlags : List Bytes → List Bytes → Prop
  | nil : WithFlags [] []
  | keep (arg : Bytes) {args args' : List Bytes} (rest : WithFlags args args') :
    WithFlags (arg :: args) (arg :: args')
  | insert {flag : Bytes} (hflag : flag ∈ globalFlags) {args args' : List Bytes}
    (rest : WithFlags args args') : WithFlags args (flag :: args')

/-- Without its global flags it is the same command line. -/
theorem WithFlags.withoutGlobalFlags_eq {args args' : List Bytes} (h : WithFlags args args') :
    withoutGlobalFlags (args'.map Bytes.untilNul)
      = withoutGlobalFlags (args.map Bytes.untilNul) := by
  unfold withoutGlobalFlags
  induction h with
  | nil => rfl
  | keep arg _ ih => rw [List.map_cons, List.map_cons, List.filter_cons, List.filter_cons, ih]
  | insert hflag _ ih =>
    have hglobal : ∀ flag ∈ globalFlags, ¬ (globalFlag? (Bytes.untilNul flag)).isNone = true := by
      decide
    rw [List.map_cons, List.filter_cons, if_neg (hglobal _ hflag), ih]

theorem agree_flagged {s₁ s₂ : Session} (h : s₁.Agree s₂) (args args' : List Bytes) :
    (flagged args s₁).Agree (flagged args' s₂) := by
  have hout : ∀ (flags : List GlobalFlag) (s : Session), (flags.foldl applyFlag s).out = s.out := by
    intro flags
    induction flags with
    | nil => exact fun _ => rfl
    | cons flag flags ih =>
      intro s
      rw [List.foldl_cons, ih]
      cases flag with
      | verbose => rfl
      | noColor => rfl
  exact h.alike (alike_flagged args s₁) (alike_flagged args' s₂) (hout _ _) (hout _ _)

/-- Two runs with the same status, the same files, and the same text on the output stream
apart from its colours. -/
structure SameResult (x y : Nat × Session) : Prop where
  status : x.1 = y.1
  files : x.2.files = y.2.files
  out : Console.plain x.2.out = Console.plain y.2.out

/-- Two runs of the program whose command lines differ in global flags at most, in sessions that
agree, have the same result. And writing a key store sees the supply only: whatever else two
sessions differ in, it comes to the same file or fails for the same reason, and leaves the same
random bytes. -/
theorem run_diagnostics :
    (∀ {args args₁ args₂ : List Bytes} {s₁ s₂ : Session}, WithFlags args args₁ →
      WithFlags args args₂ → s₁.Agree s₂ → SameResult (run args₁ s₁) (run args₂ s₂))
    ∧ ∀ (c : Contents) (passwords : Passwords) {s₁ s₂ : Session}, s₁.supply = s₂.supply →
      ((Shell.task (c.toFile passwords)).run.run s₁).1
          = ((Shell.task (c.toFile passwords)).run.run s₂).1
        ∧ ((Shell.task (c.toFile passwords)).run.run s₁).2.random
          = ((Shell.task (c.toFile passwords)).run.run s₂).2.random := by
  refine ⟨?_, fun c passwords _ _ hs => run_task_of_supply (c.toFile passwords) hs⟩
  intro args args₁ args₂ s₁ s₂ h₁ h₂ hs
  rw [run_eq h₁.withoutGlobalFlags_eq, run_eq h₂.withoutGlobalFlags_eq]
  have hends := Command.steady (Command.ofArgs (withoutGlobalFlags (args.map Bytes.untilNul)))
    (flagged args₁ s₁) (flagged args₂ s₂) (agree_flagged hs args₁ args₂)
  generalize (Command.ofArgs _).run.run.run (flagged args₁ s₁) = x at hends ⊢
  generalize (Command.ofArgs _).run.run.run (flagged args₂ s₂) = y at hends ⊢
  cases hends with
  | result hresult hs =>
    refine ⟨hresult, hs.files, ?_⟩
    exact congrArg (fun s : Console.Screen => s.shown ++ s.pending) hs.out
  | failure f hs =>
    refine ⟨rfl, hs.files, ?_⟩
    exact congrArg (fun s : Console.Screen => s.shown ++ s.pending) hs.out

/-- The sample on a terminal. -/
def colorfulSession : Session := { sampleSession with terminals := ⟨true, true⟩ }

/-- The sample with colours forbidden by the environment. -/
def colorlessSession : Session :=
  { sampleSession with
    environment := ⟨["NO_COLOR=1", "JKSPACK_STORE_PASSWORD=changeit"].map ascii⟩ }

/-- What is shown of a file that is no key store differs between the two in the colour of the
marks, and in nothing else. Packing gives the same in both. -/
theorem run_diagnostics_sample :
    WithFlags (["jks", "info", "c"].map ascii) (["jks", "info", "c"].map ascii)
      ∧ WithFlags (["jks", "info", "c"].map ascii)
          (["jks", "-v", "info", "c", "--verbose"].map ascii)
      ∧ colorfulSession.Agree colorlessSession
      ∧ (run (["jks", "info", "c"].map ascii) colorfulSession).2.out
          ≠ (run (["jks", "-v", "info", "c", "--verbose"].map ascii) colorlessSession).2.out
      ∧ SameResult (run (["jks", "info", "c"].map ascii) colorfulSession)
          (run (["jks", "-v", "info", "c", "--verbose"].map ascii) colorlessSession)
      ∧ colorfulSession.supply = colorlessSession.supply
      ∧ ((Shell.task (Contents.sample.toFile Passwords.sample)).run.run colorfulSession).1
          = ((Shell.task (Contents.sample.toFile Passwords.sample)).run.run
              colorlessSession).1 := by
  have hbare : WithFlags (["jks", "info", "c"].map ascii) (["jks", "info", "c"].map ascii) :=
    .keep _ (.keep _ (.keep _ .nil))
  have hflags : WithFlags (["jks", "info", "c"].map ascii)
      (["jks", "-v", "info", "c", "--verbose"].map ascii) :=
    .keep _ (.insert (by decide) (.keep _ (.keep _ (.insert (by decide) .nil))))
  have hagree : colorfulSession.Agree colorlessSession :=
    ⟨by unfold Environment.Agree; decide +kernel, rfl, rfl, rfl, rfl, rfl⟩
  have hsupply : colorfulSession.supply = colorlessSession.supply := rfl
  exact ⟨hbare, hflags, hagree, by decide +kernel, run_diagnostics.1 hbare hflags hagree, hsupply,
    (run_diagnostics.2 Contents.sample Passwords.sample hsupply).1⟩

end CommandLine

end Keystore
