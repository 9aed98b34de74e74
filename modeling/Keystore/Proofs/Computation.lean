import Keystore.Supply
import Mathlib.Data.List.Forall2

/-!
# Running computations that carry a state and may fail

Writing a key store and running a command line are computations of one kind: they
thread a state, and end with a result or a failure, either way with the state at
that point. This module says how the run of a composed computation is made of the
runs of its parts.

A sequence comes to a result through results of both parts, and fails where the
first of them fails (`run_bind_eq_ok`, `run_bind_eq_error`). For a computation over
a list that gives the law used for entries: if it fails, some element is the first
to fail, everything before it succeeded, and nothing after it was looked at
(`run_mapM_eq_error`).

Tasks are such computations over a supply. They can do two things to it: give notices
and take random bytes. Both have a name here (`Supply.noted`, `Supply.drawn`), and each
operation of tasks is said to do one of them or nothing. Neither touches the clock, so
all records of a file see the same time.
-/

namespace Keystore.Computation

variable {ε σ α β : Type} {t : ExceptT ε (StateM σ) α} {g : α → ExceptT ε (StateM σ) β}
  {s s' : σ}

/-! ## One after the other -/

theorem run_bind (t : ExceptT ε (StateM σ) α) (g : α → ExceptT ε (StateM σ) β) (s : σ) :
    (t >>= g).run.run s = match t.run.run s with
      | (.ok a, s₁) => (g a).run.run s₁
      | (.error f, s₁) => (.error f, s₁) := by
  show (match t.run.run s with | (r, s₁) => (ExceptT.bindCont g r).run s₁) = _
  rcases t.run.run s with ⟨_ | a, s₁⟩
  · rfl
  · rfl

theorem run_bind_of_ok {a : α} (h : t.run.run s = (.ok a, s')) :
    (t >>= g).run.run s = (g a).run.run s' := by
  rw [run_bind, h]

theorem run_bind_of_error {f : ε} (h : t.run.run s = (.error f, s')) :
    (t >>= g).run.run s = (.error f, s') := by
  rw [run_bind, h]

/-- Both parts of a sequence come to a result. -/
theorem run_bind_eq_ok {b : β} :
    (t >>= g).run.run s = (.ok b, s') ↔
      ∃ a s₁, t.run.run s = (.ok a, s₁) ∧ (g a).run.run s₁ = (.ok b, s') := by
  rw [run_bind]
  rcases ht : t.run.run s with ⟨f | a, s₁⟩
  · constructor
    · intro h
      exact nomatch congrArg Prod.fst h
    · rintro ⟨a, s₂, h, _⟩
      exact nomatch congrArg Prod.fst h
  · constructor
    · intro h
      exact ⟨a, s₁, rfl, h⟩
    · rintro ⟨a', s₂, h, hg⟩
      obtain ⟨ha, rfl⟩ := Prod.mk.inj h
      obtain rfl := Except.ok.inj ha
      exact hg

/-- One of the two parts of a sequence fails, the second after a result of the first. -/
theorem run_bind_eq_error {f : ε} :
    (t >>= g).run.run s = (.error f, s') ↔
      t.run.run s = (.error f, s')
        ∨ ∃ a s₁, t.run.run s = (.ok a, s₁) ∧ (g a).run.run s₁ = (.error f, s') := by
  rw [run_bind]
  rcases ht : t.run.run s with ⟨e | a, s₁⟩
  · constructor
    · intro h
      obtain ⟨he, rfl⟩ := Prod.mk.inj h
      obtain rfl := Except.error.inj he
      exact Or.inl rfl
    · rintro (h | ⟨a, s₂, h, _⟩)
      · obtain ⟨he, rfl⟩ := Prod.mk.inj h
        obtain rfl := Except.error.inj he
        rfl
      · exact nomatch congrArg Prod.fst h
  · constructor
    · intro h
      exact Or.inr ⟨a, s₁, rfl, h⟩
    · rintro (h | ⟨a', s₂, h, hg⟩)
      · exact nomatch congrArg Prod.fst h
      · obtain ⟨ha, rfl⟩ := Prod.mk.inj h
        obtain rfl := Except.ok.inj ha
        exact hg

theorem run_pure_eq_ok {a b : α} :
    (pure a : ExceptT ε (StateM σ) α).run.run s = (.ok b, s') ↔ a = b ∧ s = s' := by
  constructor
  · intro h
    obtain ⟨hab, hs⟩ := Prod.mk.inj h
    exact ⟨Except.ok.inj hab, hs⟩
  · rintro ⟨rfl, rfl⟩
    rfl

theorem run_liftM (x : Except ε α) (s : σ) :
    (liftM x : ExceptT ε (StateM σ) α).run.run s = (x, s) := rfl

theorem run_liftM_bind_of_ok {x : Except ε α} {a : α} (h : x = .ok a) (s : σ) :
    ((liftM x : ExceptT ε (StateM σ) α) >>= g).run.run s = (g a).run.run s := by
  rw [run_bind, run_liftM, h]

theorem run_liftM_bind_of_error {x : Except ε α} {f : ε} (h : x = .error f) (s : σ) :
    ((liftM x : ExceptT ε (StateM σ) α) >>= g).run.run s = (.error f, s) := by
  rw [run_bind, run_liftM, h]

/-- A failure that is told in other words is still a failure. -/
theorem mapError_eq_ok {ε' : Type} {x : Except ε α} {tell : ε → ε'} {a : α} :
    x.mapError tell = .ok a ↔ x = .ok a := by
  cases x with
  | error f =>
    constructor
    · intro h
      exact nomatch h
    · intro h
      exact nomatch h
  | ok b => rw [Except.mapError, Except.ok.injEq, Except.ok.injEq]

/-! ## Over a list -/

variable {step : α → ExceptT ε (StateM σ) β}

theorem run_mapM_nil (step : α → ExceptT ε (StateM σ) β) (s : σ) :
    (([] : List α).mapM step).run.run s = (.ok [], s) := rfl

theorem run_mapM_cons_eq_ok {a : α} {as : List α} {cs : List β} :
    ((a :: as).mapM step).run.run s = (.ok cs, s') ↔
      ∃ b s₁ bs, (step a).run.run s = (.ok b, s₁) ∧ (as.mapM step).run.run s₁ = (.ok bs, s')
        ∧ cs = b :: bs := by
  rw [List.mapM_cons, run_bind_eq_ok]
  constructor
  · rintro ⟨b, s₁, hb, hrest⟩
    obtain ⟨bs, s₂, hbs, hpure⟩ := run_bind_eq_ok.mp hrest
    obtain ⟨rfl, rfl⟩ := run_pure_eq_ok.mp hpure
    exact ⟨b, s₁, bs, hb, hbs, rfl⟩
  · rintro ⟨b, s₁, bs, hb, hbs, rfl⟩
    exact ⟨b, s₁, hb, run_bind_eq_ok.mpr ⟨bs, s', hbs, rfl⟩⟩

/-- What each step establishes between its element and its result holds along the list. -/
theorem run_mapM_forall₂ {I : σ → Prop} {R : α → β → Prop}
    (hstep : ∀ {s s' a b}, I s → (step a).run.run s = (.ok b, s') → R a b ∧ I s')
    {as : List α} {bs : List β} (hs : I s) (h : (as.mapM step).run.run s = (.ok bs, s')) :
    List.Forall₂ R as bs ∧ I s' := by
  induction as generalizing s bs with
  | nil =>
    obtain ⟨hbs, rfl⟩ := Prod.mk.inj h
    obtain rfl := Except.ok.inj hbs
    exact ⟨.nil, hs⟩
  | cons a as ih =>
    obtain ⟨b, s₁, bs, hb, hbs, rfl⟩ := run_mapM_cons_eq_ok.mp h
    obtain ⟨hR, hs₁⟩ := hstep hs hb
    obtain ⟨hall, hs'⟩ := ih hs₁ hbs
    exact ⟨.cons hR hall, hs'⟩

/-- Steps that come to a result wherever the invariant holds come to the results in a row. -/
theorem exists_run_mapM {I : σ → Prop} {R : α → β → Prop}
    (hstep : ∀ {s a b}, I s → R a b → ∃ s', (step a).run.run s = (.ok b, s') ∧ I s')
    {as : List α} {bs : List β} (h : List.Forall₂ R as bs) (hs : I s) :
    ∃ s', (as.mapM step).run.run s = (.ok bs, s') ∧ I s' := by
  induction h generalizing s with
  | nil => exact ⟨s, rfl, hs⟩
  | cons hfirst _ ih =>
    obtain ⟨s₁, hb, hs₁⟩ := hstep hs hfirst
    obtain ⟨s', hbs, hs'⟩ := ih hs₁
    exact ⟨s', run_mapM_cons_eq_ok.mpr ⟨_, s₁, _, hb, hbs, rfl⟩, hs'⟩

/-- Steps that are the same for each element of a list are the same along it. -/
theorem mapM_congr {step step' : α → ExceptT ε (StateM σ) β} {as : List α}
    (h : ∀ a ∈ as, step a = step' a) : as.mapM step = as.mapM step' := by
  induction as with
  | nil => rw [List.mapM_nil, List.mapM_nil]
  | cons a as ih =>
    obtain ⟨ha, has⟩ := List.forall_mem_cons.mp h
    rw [List.mapM_cons, List.mapM_cons, ha, ih has]

/-- A failure over a list is that of the first element that fails. -/
theorem run_mapM_eq_error {as : List α} {f : ε} (h : (as.mapM step).run.run s = (.error f, s')) :
    ∃ front a back bs s₁, as = front ++ a :: back
      ∧ (front.mapM step).run.run s = (.ok bs, s₁)
      ∧ (step a).run.run s₁ = (.error f, s') := by
  induction as generalizing s with
  | nil => exact nomatch congrArg Prod.fst h
  | cons a as ih =>
    rw [List.mapM_cons] at h
    -- the head fails, or it does not and something behind it is the first to fail
    rcases run_bind_eq_error.mp h with hfirst | ⟨b, s₁, hb, hrest⟩
    · exact ⟨[], a, as, [], s, rfl, rfl, hfirst⟩
    · rcases run_bind_eq_error.mp hrest with hlater | ⟨bs, s₂, _, hpure⟩
      · obtain ⟨front, a', back, bs, s₂, rfl, hfront, hfail⟩ := ih hlater
        exact ⟨a :: front, a', back, b :: bs, s₂, rfl,
          run_mapM_cons_eq_ok.mpr ⟨b, s₁, bs, hb, hfront, rfl⟩, hfail⟩
      · exact nomatch congrArg Prod.fst hpure

end Keystore.Computation

namespace Keystore

/-! ## Supplies -/

namespace Supply

/-- The supply after some notices. -/
def noted (s : Supply) (ns : List Notice) : Supply := { s with notices := s.notices ++ ns }

/-- The supply after `n` random bytes have been taken. -/
def drawn (s : Supply) (n : Nat) : Supply := { s with random := s.random.drop n }

@[simp] theorem random_noted (s : Supply) (ns : List Notice) : (s.noted ns).random = s.random := rfl

@[simp] theorem random_drawn (s : Supply) (n : Nat) : (s.drawn n).random = s.random.drop n := rfl

@[simp] theorem notices_noted (s : Supply) (ns : List Notice) :
    (s.noted ns).notices = s.notices ++ ns := rfl

@[simp] theorem notices_drawn (s : Supply) (n : Nat) : (s.drawn n).notices = s.notices := rfl

theorem noted_nil (s : Supply) : s.noted [] = s := by
  rw [noted, List.append_nil]

theorem noted_noted (s : Supply) (ns ms : List Notice) :
    (s.noted ns).noted ms = s.noted (ns ++ ms) := by
  simp only [noted, List.append_assoc]

end Supply

/-! ## Operations -/

namespace Task

variable {α : Type}

theorem run_note (n : Notice) (s : Supply) : (note n).run.run s = (.ok (), s.noted [n]) := rfl

/-- A salt is taken off the front of the random bytes. -/
theorem run_salt_of_le {n : Nat} {s : Supply} (h : n ≤ s.random.length) :
    (salt n).run.run s = (.ok (s.random.take n), s.drawn n) := by
  have hsize : (s.random.take n).length = n := by
    rw [List.length_take]
    omega
  have hdraw : (modifyGet (Supply.draw n) : Task (Option Bytes)).run.run s
      = (.ok (some (s.random.take n)), s.drawn n) := by
    show (Except.ok (s.draw n).1, (s.draw n).2) = _
    rw [Supply.draw, if_pos hsize]
    rfl
  rw [salt, Computation.run_bind_of_ok hdraw]
  rfl

/-- A refused salt takes nothing. -/
theorem run_salt_of_lt {n : Nat} {s : Supply} (h : s.random.length < n) :
    (salt n).run.run s = (.error (.noRandomness s.explains), s) := by
  have hsize : (s.random.take n).length ≠ n := by
    rw [List.length_take]
    omega
  have hdraw : (modifyGet (Supply.draw n) : Task (Option Bytes)).run.run s = (.ok none, s) := by
    show (Except.ok (s.draw n).1, (s.draw n).2) = _
    rw [Supply.draw, if_neg hsize]
  rw [salt, Computation.run_bind_of_ok hdraw]
  rfl

theorem run_blame (g : Fault → Fault) (t : Task α) (s : Supply) :
    (blame g t).run.run s = ((t.run.run s).1.mapError g, (t.run.run s).2) := rfl

/-- A stage that comes to a result adds nothing to it. -/
theorem run_during_of_ok {stage : Stage} {t : Task α} {s s' : Supply} {a : α}
    (h : t.run.run s = (.ok a, s')) : (during stage t).run.run s = (.ok a, s') := by
  rw [during]
  simp only [ExceptT.run_tryCatch, StateT.run_bind, h]
  rfl

/-- A stage that fails says so, and passes its fault on. -/
theorem run_during_of_error {stage : Stage} {t : Task α} {s s' : Supply} {f : Fault}
    (h : t.run.run s = (.error f, s')) :
    (during stage t).run.run s = (.error f, s'.noted [.moved stage .failed]) := by
  rw [during]
  simp only [ExceptT.run_tryCatch, StateT.run_bind, h]
  rfl

end Task

end Keystore
