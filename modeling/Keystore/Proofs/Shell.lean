import Keystore.Proofs.Computation
import Keystore.Shell

/-!
# What operations of a process change

Most operations of a process leave its surroundings alone: they may find out settings of
the console and print something, but environment, files, time and random bytes stay as
they are. `Session.Alike` says so of two sessions. Notices are shown in a session that
is alike (`alike_reportAll`), so after a task only the random bytes that it took are gone.

The operations that read files are settled here by what they give in terms of the files,
and `Shell.run_write_eq_ok` is the only one that changes them.
-/

namespace Keystore

namespace Session

/-- The same surroundings, whatever was printed or found out about the console. -/
structure Alike (s s' : Session) : Prop where
  environment : s'.environment = s.environment
  terminals : s'.terminals = s.terminals
  files : s'.files = s.files
  now : s'.now = s.now
  random : s'.random = s.random
  explains : s'.explains = s.explains

theorem Alike.refl (s : Session) : s.Alike s := ⟨rfl, rfl, rfl, rfl, rfl, rfl⟩

theorem Alike.trans {s s₁ s₂ : Session} (h : s.Alike s₁) (h' : s₁.Alike s₂) : s.Alike s₂ where
  environment := h'.environment.trans h.environment
  terminals := h'.terminals.trans h.terminals
  files := h'.files.trans h.files
  now := h'.now.trans h.now
  random := h'.random.trans h.random
  explains := h'.explains.trans h.explains

theorem Alike.symm {s s' : Session} (h : s.Alike s') : s'.Alike s where
  environment := h.environment.symm
  terminals := h.terminals.symm
  files := h.files.symm
  now := h.now.symm
  random := h.random.symm
  explains := h.explains.symm

/-- Tasks see the same in sessions that are alike. -/
theorem Alike.supply {s s' : Session} (h : s.Alike s') : s'.supply = s.supply := by
  unfold Session.supply
  rw [h.now, h.random, h.explains]

/-! ## Printing -/

theorem alike_printMarked (mark color text : Bytes) (s : Session) :
    s.Alike (s.printMarked mark color text) := ⟨rfl, rfl, rfl, rfl, rfl, rfl⟩

theorem alike_report (s : Session) (n : Notice) : s.Alike (s.report n) := by
  unfold report
  cases n.severity with
  | warning => exact alike_printMarked _ _ _ s
  | info =>
    show s.Alike (if (s.console.verbosity s.environment).1 then _ else _)
    split
    · exact ⟨rfl, rfl, rfl, rfl, rfl, rfl⟩
    · exact ⟨rfl, rfl, rfl, rfl, rfl, rfl⟩

/-- Notices are shown and change nothing else. -/
theorem alike_reportAll (s : Session) (ns : List Notice) : s.Alike (s.reportAll ns) := by
  unfold reportAll
  induction ns generalizing s with
  | nil => exact .refl s
  | cons n ns ih =>
    rw [List.foldl_cons]
    exact (alike_report s n).trans (ih (s.report n))

/-- Notices go to the error stream. -/
theorem out_report (s : Session) (n : Notice) : (s.report n).out = s.out := by
  unfold report
  cases n.severity with
  | warning => rfl
  | info =>
    show Session.out (if (s.console.verbosity s.environment).1 then _ else _) = s.out
    split
    · rfl
    · rfl

theorem out_reportAll (s : Session) (ns : List Notice) : (s.reportAll ns).out = s.out := by
  unfold reportAll
  induction ns generalizing s with
  | nil => rfl
  | cons n ns ih =>
    rw [List.foldl_cons]
    exact (ih (s.report n)).trans (out_report s n)

/-- After a task the random bytes that it left are there, and all else is alike. -/
theorem alike_after (s : Session) (used : Supply) :
    Alike { s with random := used.random } (s.after used) :=
  alike_reportAll _ _

end Session

namespace Shell

variable {s s' : Session} {path data : Bytes}

/-! ## Tasks -/

theorem run_get (s : Session) : (get : Shell Session).run.run s = (.ok s, s) := rfl

/-- A task is run on the session's supply. -/
theorem run_task {α : Type} (t : Task α) (s : Session) :
    (task t).run.run s
      = ((t.run.run s.supply).1.mapError Failure.fault, s.after (t.run.run s.supply).2) := by
  unfold task
  rw [Computation.run_bind_of_ok (run_get s)]
  rcases t.run.run s.supply with ⟨f | a, used⟩
  · rfl
  · rfl

theorem run_task_eq_ok {α : Type} {t : Task α} {a : α} :
    (task t).run.run s = (.ok a, s') ↔
      ∃ used, t.run.run s.supply = (.ok a, used) ∧ s' = s.after used := by
  rw [run_task, Prod.mk.injEq, Computation.mapError_eq_ok]
  constructor
  · rintro ⟨hresult, rfl⟩
    exact ⟨_, Prod.ext hresult rfl, rfl⟩
  · rintro ⟨used, hrun, rfl⟩
    rw [hrun]
    exact ⟨rfl, rfl⟩

/-! ## Files -/

/-- Why a file could not be read. -/
def readFailure (path : Bytes) : FileTree.Refusal → Failure
  | .notOpened => .fileNotOpened path
  | .failed => .fileNotRead path

theorem run_read (path : Bytes) (s : Session) :
    (read path).run.run s = ((s.files.read path).mapError (readFailure path), s) := by
  unfold read
  rw [Computation.run_bind_of_ok (run_get s)]
  rcases s.files.read path with (_ | _) | data
  · rfl
  · rfl
  · rfl

/-- Reading gives the contents of a file. -/
theorem run_read_eq_ok :
    (read path).run.run s = (.ok data, s') ↔ s.files.read path = .ok data ∧ s' = s := by
  rw [run_read, Prod.mk.injEq, Computation.mapError_eq_ok, eq_comm (a := s)]

/-- Why a file could not be written. -/
def writeFailure (path : Bytes) : FileTree.Refusal → Failure
  | .notOpened => .outputNotOpened path
  | .failed => .outputNotWritten path

theorem run_write (path data : Bytes) (s : Session) :
    (write path data).run.run s = match s.files.write path data with
      | .ok files => (.ok (), { s with files })
      | .error r => (.error (writeFailure path r), s) := by
  unfold write
  rw [Computation.run_bind_of_ok (run_get s)]
  rcases s.files.write path data with (_ | _) | files
  · rfl
  · rfl
  · rfl

/-- Writing replaces the files and nothing else. -/
theorem run_write_eq_ok :
    (write path data).run.run s = (.ok (), s') ↔
      ∃ files, s.files.write path data = .ok files ∧ s' = { s with files } := by
  rw [run_write]
  rcases s.files.write path data with r | files
  · constructor
    · intro h
      exact nomatch congrArg Prod.fst h
    · rintro ⟨_, h, _⟩
      exact nomatch h
  · constructor
    · intro h
      obtain ⟨-, rfl⟩ := Prod.mk.inj h
      exact ⟨files, rfl, rfl⟩
    · rintro ⟨_, h, rfl⟩
      obtain rfl := Except.ok.inj h
      rfl

/-- The certificates in a file are all that are found in it, and there are some. -/
theorem run_certificatesIn_eq_ok {certificates : List Bytes} :
    (certificatesIn path).run.run s = (.ok certificates, s') ↔
      ∃ data, s.files.read path = .ok data ∧ data ≠ [] ∧ certificates = Bundle.certificates data
        ∧ certificates ≠ [] ∧ s' = s := by
  unfold certificatesIn
  rw [Computation.run_bind_eq_ok]
  constructor
  · rintro ⟨data, s₁, hread, hrest⟩
    obtain ⟨hdata, rfl⟩ := run_read_eq_ok.mp hread
    split at hrest
    · exact nomatch congrArg Prod.fst hrest
    · next hsome =>
      split at hrest
      · exact nomatch congrArg Prod.fst hrest
      · next hcertificates =>
        obtain ⟨rfl, rfl⟩ := Computation.run_pure_eq_ok.mp hrest
        exact ⟨data, hdata, hsome, rfl, hcertificates, rfl⟩
  · rintro ⟨data, hdata, hsome, rfl, hcertificates, rfl⟩
    refine ⟨data, s', run_read_eq_ok.mpr ⟨hdata, rfl⟩, ?_⟩
    split
    · next hnil => exact absurd rfl hsome
    · split
      · next hnil => exact absurd hnil hcertificates
      · rfl

/-- The key in a file is the one that is found in it. -/
theorem run_keyIn_eq_ok {key : Key} :
    (keyIn path).run.run s = (.ok key, s') ↔
      ∃ data, s.files.read path = .ok data ∧ data ≠ [] ∧ Bundle.key? data = some key
        ∧ s' = s := by
  unfold keyIn
  rw [Computation.run_bind_eq_ok]
  constructor
  · rintro ⟨data, s₁, hread, hrest⟩
    obtain ⟨hdata, rfl⟩ := run_read_eq_ok.mp hread
    split at hrest
    · exact nomatch congrArg Prod.fst hrest
    · next hsome =>
      split at hrest
      · next key' hkey =>
        obtain ⟨rfl, rfl⟩ := Computation.run_pure_eq_ok.mp hrest
        exact ⟨data, hdata, hsome, hkey, rfl⟩
      · exact nomatch congrArg Prod.fst hrest
  · rintro ⟨data, hdata, hsome, hkey, rfl⟩
    refine ⟨data, s', run_read_eq_ok.mpr ⟨hdata, rfl⟩, ?_⟩
    split
    · exact absurd rfl hsome
    · simp only [hkey]
      rfl

end Shell

end Keystore
