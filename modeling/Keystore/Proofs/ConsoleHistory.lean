import Keystore.Proofs.Console
import Keystore.Proofs.Environment
import Mathlib.Data.List.Infix

/-!
# The settings of the console through a session

A session is a row of actions: variables are set, the console is asked about colours and
verbosity, texts are painted, notices are shown, and settings are made. What it answers at the
end is said here in terms of the row alone, without the state of the console
(`IsColoredAfter`, `IsVerboseAfter`): the setting that was made last counts, and without one
the environment as it was at the first question. What a variable held then is what the row set
last in front of that question, or what it held at the start (`ValueAfter`). Showing a notice is
a question too: any notice of low urgency asks about verbosity, and each that is shown asks
about the colours of the error stream.

`BeforeFirst` is what stands in front of the first question, and `Keeps` says of a cell of the
console that it holds the answer from there. One action keeps all of that
(`Remembers.perform`), so a whole row does. `settings_of_history` is the result.
-/

namespace Keystore

open Bytes (ascii)

/-! ## The first of a row -/

section

variable {α β : Type} {asks : List α → α → Prop} {answer : List α → β} {as before : List α}
  {cell : Option β} {a : α}

/-- What stands in front of the first member of a row that asks; the whole row if none does.
Whether a member asks may depend on those before it. -/
structure BeforeFirst (asks : List α → α → Prop) (as before : List α) : Prop where
  front : before <+: as
  quiet : ∀ front a, front ++ [a] <+: before → ¬ asks front a
  next : ∀ a, before ++ [a] <+: as → asks before a

/-- Two fronts of a row continue with the same member. -/
theorem eq_of_append_singleton_isPrefix {front : List α} {b c : α} (hb : front ++ [b] <+: as)
    (hc : front ++ [c] <+: as) : b = c := by
  have hsame : front ++ [b] = front ++ [c] :=
    (List.prefix_of_prefix_length_le hb hc (by simp)).eq_of_length (by simp)
  exact List.singleton_injective (List.append_cancel_left hsame)

/-- A front that is not the whole row goes on. -/
theorem exists_append_singleton_isPrefix (h : before <+: as) (hne : before ≠ as) :
    ∃ a, before ++ [a] <+: as := by
  obtain ⟨rest, rfl⟩ := h
  cases rest with
  | nil => exact absurd (List.append_nil before).symm hne
  | cons a rest => exact ⟨a, rest, by simp⟩

/-- No front that ends before another one does can stand before the first as well. -/
theorem BeforeFirst.le {other : List α} (h : BeforeFirst asks as before)
    (hother : BeforeFirst asks as other) (hfront : before <+: other) : before = other := by
  by_contra hne
  obtain ⟨a, ha⟩ := exists_append_singleton_isPrefix hfront hne
  exact hother.quiet before a ha (h.next a (ha.trans hother.front))

theorem BeforeFirst.unique {other : List α} (h : BeforeFirst asks as before)
    (hother : BeforeFirst asks as other) : before = other := by
  rcases List.prefix_or_prefix_of_prefix h.front hother.front with hfront | hfront
  · exact h.le hother hfront
  · exact (hother.le h hfront).symm

/-- Once a member has asked, those behind it do not matter. -/
theorem BeforeFirst.append (h : BeforeFirst asks as before) (hne : before ≠ as)
    (more : List α) : BeforeFirst asks (as ++ more) before := by
  obtain ⟨b, hb⟩ := exists_append_singleton_isPrefix h.front hne
  refine ⟨h.front.trans (List.prefix_append _ _), h.quiet, ?_⟩
  intro c hc
  rw [eq_of_append_singleton_isPrefix hc (hb.trans (List.prefix_append _ _))]
  exact h.next b hb

/-- The first member that asks ends the front. -/
theorem BeforeFirst.of_asks (h : BeforeFirst asks as as) (ha : asks as a) :
    BeforeFirst asks (as ++ [a]) as := by
  refine ⟨List.prefix_append _ _, h.quiet, ?_⟩
  intro c hc
  rw [eq_of_append_singleton_isPrefix hc (List.prefix_refl (as ++ [a]))]
  exact ha

/-- A member that does not ask prolongs the front. -/
theorem BeforeFirst.of_not_asks (h : BeforeFirst asks as as) (ha : ¬ asks as a) :
    BeforeFirst asks (as ++ [a]) (as ++ [a]) := by
  refine ⟨List.prefix_refl _, ?_, ?_⟩
  · intro front b hb
    rcases List.prefix_concat_iff.mp hb with hwhole | hfront
    · obtain ⟨rfl, hab⟩ := List.append_inj' hwhole rfl
      obtain rfl := List.singleton_injective hab
      exact ha
    · exact h.quiet front b hfront
  · intro c hc
    have hlength := hc.length_le
    simp at hlength

/-- A cell that holds the answer from in front of the first question, and nothing as long as
there was none. -/
def Keeps (asks : List α → α → Prop) (answer : List α → β) (as : List α) (cell : Option β) :
    Prop :=
  ∃ before, BeforeFirst asks as before
    ∧ (before = as ∧ cell = none ∨ before ≠ as ∧ cell = some (answer before))

theorem keeps_nil : Keeps asks answer [] none := by
  refine ⟨[], ⟨List.prefix_refl _, ?_, ?_⟩, .inl ⟨rfl, rfl⟩⟩
  · intro front a h
    exact absurd (List.prefix_nil.mp h) (by simp)
  · intro a h
    exact absurd (List.prefix_nil.mp h) (by simp)

/-- Whoever asks, or asks again, is answered from in front of the first question. -/
theorem Keeps.exists_getD (h : Keeps asks answer as cell) :
    ∃ before, BeforeFirst asks as before ∧ cell.getD (answer as) = answer before := by
  obtain ⟨before, hbefore, ⟨rfl, rfl⟩ | ⟨-, rfl⟩⟩ := h
  · exact ⟨_, hbefore, rfl⟩
  · exact ⟨_, hbefore, rfl⟩

/-- A front of a row is not a longer row. -/
theorem ne_append_singleton_of_isPrefix (h : before <+: as) (a : α) : before ≠ as ++ [a] := by
  rintro rfl
  have hlength := h.length_le
  rw [List.length_append, List.length_singleton] at hlength
  omega

theorem Keeps.of_asks (h : Keeps asks answer as cell) (ha : asks as a) :
    Keeps asks answer (as ++ [a]) (some (cell.getD (answer as))) := by
  obtain ⟨before, hbefore, ⟨rfl, rfl⟩ | ⟨hne, rfl⟩⟩ := h
  · exact ⟨_, hbefore.of_asks ha,
      .inr ⟨ne_append_singleton_of_isPrefix (List.prefix_refl _) a, rfl⟩⟩
  · exact ⟨before, hbefore.append hne [a],
      .inr ⟨ne_append_singleton_of_isPrefix hbefore.front a, rfl⟩⟩

theorem Keeps.of_not_asks (h : Keeps asks answer as cell) (ha : ¬ asks as a) :
    Keeps asks answer (as ++ [a]) cell := by
  obtain ⟨before, hbefore, ⟨rfl, rfl⟩ | ⟨hne, rfl⟩⟩ := h
  · exact ⟨_, hbefore.of_not_asks ha, .inl ⟨rfl, rfl⟩⟩
  · exact ⟨before, hbefore.append hne [a],
      .inr ⟨ne_append_singleton_of_isPrefix hbefore.front a, rfl⟩⟩

end

/-! ## Actions -/

/-- What happens in a session as far as the console is concerned. -/
inductive Action where
  | setVariable (name : Bytes) (value : Option Bytes)
  | askColors (stream : Stream)
  | paint (text color : Bytes) (stream : Stream)
  | report (n : Notice)
  | setColors (on : Bool)
  | askVerbosity
  | setVerbose (on : Bool)

namespace Action

/-- The setting for colours that an action makes. -/
def colors? : Action → Option Bool
  | setColors on => some on
  | _ => none

/-- The setting for verbosity that an action makes. -/
def verbosity? : Action → Option Bool
  | setVerbose on => some on
  | _ => none

/-- The environment after an action. -/
def onVariables (env : Environment) : Action → Environment
  | setVariable name value => env.set name value
  | _ => env

/-- An action that sets a variable, or removes it. -/
def Sets (name : Bytes) : Action → Prop
  | setVariable called _ => called.takeWhile (· ≠ 0) = name
  | _ => False

/-- The stream whose colours an action asks about in any case. -/
def asked? : Action → Option Stream
  | askColors stream => some stream
  | paint _ _ stream => some stream
  | report n => if n.isWarning then some .err else none
  | _ => none

/-- An action that asks about verbosity. -/
def Checks : Action → Prop
  | askVerbosity => True
  | report n => n.isWarning = false
  | _ => False

/-- An action that asks about the colours of a terminal, given whether notices of low urgency
are shown. -/
def Asks (d : Terminal) (verbose : Prop) : Action → Prop
  | askColors stream => stream.terminal? = some d
  | paint _ _ stream => stream.terminal? = some d
  | report n => d = .err ∧ (n.isWarning = true ∨ verbose)
  | _ => False

instance : DecidablePred Checks
  | askVerbosity => isTrue trivial
  | report n => inferInstanceAs (Decidable (n.isWarning = false))
  | setVariable _ _ | askColors _ | paint _ _ _ | setColors _ | setVerbose _ => isFalse id

instance (d : Terminal) (verbose : Prop) [Decidable verbose] : DecidablePred (Asks d verbose)
  | askColors stream => inferInstanceAs (Decidable (stream.terminal? = some d))
  | paint _ _ stream => inferInstanceAs (Decidable (stream.terminal? = some d))
  | report n => inferInstanceAs (Decidable (d = .err ∧ (n.isWarning = true ∨ verbose)))
  | setVariable _ _ | setColors _ | askVerbosity | setVerbose _ => isFalse id

end Action

/-- A session after an action. -/
def Session.perform (s : Session) : Action → Session
  | .setVariable name value => { s with environment := s.environment.set name value }
  | .askColors stream => s.asked stream
  | .paint text color stream => (s.paint text color stream).2
  | .report n => s.report n
  | .setColors on => { s with console := s.console.setColors on }
  | .askVerbosity => s.checked
  | .setVerbose on => { s with console := s.console.setVerbose on }

/-- A session after a row of actions. -/
def Session.performAll (s : Session) (as : List Action) : Session := as.foldl Session.perform s

/-! ## What a row of actions comes to -/

/-- The setting for colours that was made last. -/
def lastColors (as : List Action) : Option Bool := (as.filterMap Action.colors?).getLast?

/-- The setting for verbosity that was made last. -/
def lastVerbosity (as : List Action) : Option Bool := (as.filterMap Action.verbosity?).getLast?

/-- The environment after some actions. -/
def variablesAfter (env : Environment) (as : List Action) : Environment :=
  as.foldl Action.onVariables env

/-- What a variable holds after some actions: what it was set to last, cut in front of a zero
byte, and nothing if it was removed then; if it was not set, what it held at the start. -/
inductive ValueAfter (env : Environment) (name : Bytes) : List Action → Bytes → Prop
  | set (front : List Action) (called : Bytes) (value : Option Bytes) (back : List Action)
    (hcalled : called.takeWhile (· ≠ 0) = name) (hlast : ∀ a ∈ back, ¬ a.Sets name) :
    ValueAfter env name (front ++ .setVariable called value :: back)
      ((value.getD []).takeWhile (· ≠ 0))
  | kept (as : List Action) (value : Bytes) (hnone : ∀ a ∈ as, ¬ a.Sets name)
    (hvalue : env.Holds name value) : ValueAfter env name as value

/-- Whether notices of low urgency are shown after some actions: as was set last, or else as
the environment had it when that was first asked. -/
def IsVerboseAfter (env : Environment) (as : List Action) (on : Bool) : Prop :=
  lastVerbosity as = some on
    ∨ lastVerbosity as = none ∧ ∃ before value, BeforeFirst (fun _ a => a.Checks) as before
      ∧ ValueAfter env (ascii "JKSPACK_VERBOSE") before value
      ∧ (on = true ↔ Environment.IsOn value)

/-- Whether a stream is coloured after some actions: as was set last, or else as environment and
terminal had it when a stream on that terminal was first asked about. A stream on no terminal
is not coloured unless that was set. -/
def IsColoredAfter (env : Environment) (t : Terminals) (as : List Action) (stream : Stream)
    (on : Bool) : Prop :=
  lastColors as = some on
    ∨ lastColors as = none ∧ match stream.terminal? with
      | none => on = false
      | some d => ∃ before noColor disabled,
        BeforeFirst (fun front a => a.Asks d (IsVerboseAfter env front true)) as before
          ∧ ValueAfter env (ascii "NO_COLOR") before noColor
          ∧ ValueAfter env (ascii "JKSPACK_NO_COLOR") before disabled
          ∧ (on = true ↔ noColor = [] ∧ ¬ Environment.IsOn disabled ∧ t.present d = true)

theorem lastColors_append (as : List Action) (a : Action) :
    lastColors (as ++ [a]) = a.colors?.or (lastColors as) := by
  unfold lastColors
  rw [List.filterMap_append, List.getLast?_append]
  cases a <;> rfl

theorem lastVerbosity_append (as : List Action) (a : Action) :
    lastVerbosity (as ++ [a]) = a.verbosity?.or (lastVerbosity as) := by
  unfold lastVerbosity
  rw [List.filterMap_append, List.getLast?_append]
  cases a <;> rfl

theorem variablesAfter_append (env : Environment) (as : List Action) (a : Action) :
    variablesAfter env (as ++ [a]) = a.onVariables (variablesAfter env as) := by
  unfold variablesAfter
  rw [List.foldl_append]
  rfl

/-! ## Variables -/

section

open Environment (IsName)

variable {env : Environment} {name value value' : Bytes} {as : List Action} {a : Action}

theorem isName_verbose : IsName (ascii "JKSPACK_VERBOSE") := ⟨by decide, by decide, by decide⟩

theorem isName_noColor : IsName (ascii "NO_COLOR") := ⟨by decide, by decide, by decide⟩

theorem isName_disabled : IsName (ascii "JKSPACK_NO_COLOR") := ⟨by decide, by decide, by decide⟩

/-- An action that does not set a variable leaves its value. -/
theorem get_onVariables_of_not_sets (hname : IsName name) (h : ¬ a.Sets name)
    (env : Environment) : (a.onVariables env).get name = env.get name := by
  cases a with
  | setVariable called new => exact (Environment.get_set hname called new).trans (if_neg h)
  | askColors | paint | report | setColors | askVerbosity | setVerbose => rfl

theorem get_variablesAfter_of_not_sets (hname : IsName name) (h : ∀ a ∈ as, ¬ a.Sets name)
    (env : Environment) : (variablesAfter env as).get name = env.get name := by
  induction as generalizing env with
  | nil => rfl
  | cons a as ih =>
    obtain ⟨ha, has⟩ := List.forall_mem_cons.mp h
    exact (ih has (a.onVariables env)).trans (get_onVariables_of_not_sets hname ha env)

/-- The row says what a variable holds. -/
theorem ValueAfter.get_eq (hname : IsName name) (h : ValueAfter env name as value) :
    (variablesAfter env as).get name = value := by
  cases h with
  | set front called new back hcalled hlast =>
    have hrow : variablesAfter env (front ++ .setVariable called new :: back)
        = variablesAfter ((variablesAfter env front).set called new) back := List.foldl_append
    rw [hrow, get_variablesAfter_of_not_sets hname hlast, Environment.get_set hname,
      if_pos hcalled]
  | kept _ _ hnone hvalue =>
    rw [get_variablesAfter_of_not_sets hname hnone, hvalue.get_eq hname]

theorem ValueAfter.unique (hname : IsName name) (h : ValueAfter env name as value)
    (h' : ValueAfter env name as value') : value = value' :=
  (h.get_eq hname).symm.trans (h'.get_eq hname)

/-- One more action that does not set the variable. -/
theorem ValueAfter.append (h : ValueAfter env name as value) (ha : ¬ a.Sets name) :
    ValueAfter env name (as ++ [a]) value := by
  cases h with
  | set front called new back hcalled hlast =>
    rw [List.append_assoc, List.cons_append]
    exact .set front called new (back ++ [a]) hcalled
      (List.forall_mem_append.mpr ⟨hlast, List.forall_mem_singleton.mpr ha⟩)
  | kept _ _ hnone hvalue =>
    exact .kept _ _ (List.forall_mem_append.mpr ⟨hnone, List.forall_mem_singleton.mpr ha⟩) hvalue

/-- What a variable holds after a row is what the row says. -/
theorem valueAfter_get (hname : IsName name) (env : Environment) (as : List Action) :
    ValueAfter env name as ((variablesAfter env as).get name) := by
  induction as using List.reverseRecOn with
  | nil => exact .kept [] _ (List.forall_mem_nil _) (Environment.holds_get hname)
  | append_singleton as a ih =>
    rw [variablesAfter_append]
    by_cases ha : a.Sets name
    · cases a with
      | setVariable called new =>
        have hvalue : ((variablesAfter env as).set called new).get name
            = (new.getD []).takeWhile (· ≠ 0) :=
          (Environment.get_set hname called new).trans (if_pos ha)
        exact hvalue ▸ .set as called new [] ha (List.forall_mem_nil _)
      | askColors | paint | report | setColors | askVerbosity | setVerbose => exact ha.elim
    · rw [get_onVariables_of_not_sets hname ha]
      exact ih.append ha

end

/-- The rows say whether notices of low urgency are shown. -/
theorem IsVerboseAfter.unique {env : Environment} {as : List Action} {on on' : Bool}
    (h : IsVerboseAfter env as on) (h' : IsVerboseAfter env as on') : on = on' := by
  rcases h with hset | ⟨hnone, before, value, hbefore, hvalue, hon⟩
  · rcases h' with hset' | ⟨hnone', -⟩
    · exact Option.some.inj (hset.symm.trans hset')
    · exact nomatch hset.symm.trans hnone'
  · rcases h' with hset' | ⟨-, before', value', hbefore', hvalue', hon'⟩
    · exact nomatch hset'.symm.trans hnone
    · obtain rfl := hbefore.unique hbefore'
      obtain rfl := hvalue.unique isName_verbose hvalue'
      exact Bool.eq_iff_iff.mpr (hon.trans hon'.symm)

/-! ## One action -/

namespace Session

variable (s : Session) (a : Action)

theorem environment_perform : (s.perform a).environment = a.onVariables s.environment := by
  cases a with
  | report n => exact (alike_report s n).environment
  | setVariable | askColors | paint | setColors | askVerbosity | setVerbose => rfl

theorem terminals_perform : (s.perform a).terminals = s.terminals := by
  cases a with
  | report n => exact (alike_report s n).terminals
  | setVariable | askColors | paint | setColors | askVerbosity | setVerbose => rfl

/-- Showing a notice may ask about verbosity and about colours. -/
theorem console_report (n : Notice) : (s.report n).console = if n.isWarning
    then (s.asked .err).console
    else if s.isVerbose then (s.checked.asked .err).console else s.checked.console := by
  cases hn : n.isWarning with
  | true =>
    rw [report_of_warning s hn]
    rfl
  | false =>
    rw [report_of_info s hn]
    cases s.isVerbose with
    | true => rfl
    | false => rfl

theorem forced_perform :
    (s.perform a).console.forced = a.colors?.or s.console.forced := by
  cases a with
  | askColors stream => exact forced_asked s stream
  | paint text color stream => exact forced_asked s stream
  | report n =>
    show (s.report n).console.forced = s.console.forced
    rw [console_report]
    split
    · exact forced_asked s .err
    · split
      · exact forced_asked s.checked .err
      · rfl
  | setVariable | setColors | askVerbosity | setVerbose => rfl

/-- An action that asks about verbosity writes the answer down. -/
theorem verbose_perform : (s.perform a).console.verbose
    = a.verbosity?.or (if a.Checks then some s.isVerbose else s.console.verbose) := by
  cases a with
  | askColors stream => exact verbose_asked s stream
  | paint text color stream => exact verbose_asked s stream
  | report n =>
    show (s.report n).console.verbose = if n.isWarning = false then _ else _
    rw [console_report]
    cases n.isWarning with
    | true => exact verbose_asked s .err
    | false =>
      show (if s.isVerbose then _ else _ : Console).verbose = some s.isVerbose
      split
      · exact verbose_asked s.checked .err
      · rfl
  | setVariable | setColors | askVerbosity | setVerbose => rfl

/-- An action that asks about the colours of a terminal writes the answer down, unless they
are set. -/
theorem known_perform (d : Terminal) : (s.perform a).console.known d
    = if s.console.forced = none ∧ a.Asks d (s.isVerbose = true)
      then some ((s.console.known d).getD (Console.wanted s.environment (s.terminals.present d)))
      else s.console.known d := by
  cases a with
  | askColors stream => exact known_asked s stream d
  | paint text color stream => exact known_asked s stream d
  | report n =>
    have hasks : Stream.err.terminal? = some d ↔ d = .err := by
      cases d <;> decide
    show (s.report n).console.known d = _
    rw [console_report]
    cases hn : n.isWarning with
    | true => simp [Action.Asks, hn, known_asked, hasks]
    | false =>
      cases hverbose : s.isVerbose with
      | true =>
        simp only [Action.Asks, hn, Bool.false_eq_true, if_false, if_true, known_asked,
          known_checked, hasks, false_or, and_true]
        rfl
      | false => simp [Action.Asks, hn, known_checked]
  | setColors on =>
    rw [if_neg fun h => h.2]
    cases d <;> rfl
  | askVerbosity =>
    rw [if_neg fun h => h.2]
    exact known_checked s d
  | setVerbose on =>
    rw [if_neg fun h => h.2]
    cases d <;> rfl
  | setVariable name value => exact (if_neg fun h => h.2).symm

end Session

/-! ## A row of actions -/

theorem Action.asks_congr {d : Terminal} {p q : Prop} (h : p ↔ q) (a : Action) :
    a.Asks d p ↔ a.Asks d q := by
  cases a with
  | report n => exact and_congr_right' (or_congr_right h)
  | setVariable | askColors | paint | setColors | askVerbosity | setVerbose => exact Iff.rfl

/-- An action that asks about the colours of a stream in any case does nothing else. -/
theorem Action.of_asked?_eq_some {a : Action} {stream : Stream} (h : a.asked? = some stream) :
    a.colors? = none ∧ a.verbosity? = none ∧ (∀ env, a.onVariables env = env) ∧ ¬ a.Checks
      ∧ ∀ d verbose, a.Asks d verbose ↔ stream.terminal? = some d := by
  cases a with
  | askColors =>
    obtain rfl := Option.some.inj h
    exact ⟨rfl, rfl, fun _ => rfl, id, fun _ _ => Iff.rfl⟩
  | paint =>
    obtain rfl := Option.some.inj h
    exact ⟨rfl, rfl, fun _ => rfl, id, fun _ _ => Iff.rfl⟩
  | report n =>
    obtain ⟨hn, hstream⟩ := Option.ite_none_right_eq_some.mp h
    obtain rfl := Option.some.inj hstream
    refine ⟨rfl, rfl, fun _ => rfl, ?_, ?_⟩
    · intro hinfo
      exact nomatch hn.symm.trans (show n.isWarning = false from hinfo)
    · intro d verbose
      cases d with
      | out => simp [Action.Asks, Stream.terminal?]
      | err => simp [Action.Asks, Stream.terminal?, hn]
  | setVariable | setColors | askVerbosity | setVerbose => exact nomatch h

/-- What a session knows after a row of actions that began with a fresh console. -/
structure Remembers (start : Session) (as : List Action) (s : Session) : Prop where
  environment : s.environment = variablesAfter start.environment as
  terminals : s.terminals = start.terminals
  forced : s.console.forced = lastColors as
  verboseSet : ∀ on, lastVerbosity as = some on → s.console.verbose = some on
  verbose : lastVerbosity as = none → Keeps (fun _ a => a.Checks)
    (fun front => (variablesAfter start.environment front).switch (ascii "JKSPACK_VERBOSE") false)
    as s.console.verbose
  known : lastColors as = none → ∀ d, Keeps
    (fun front a => a.Asks d (IsVerboseAfter start.environment front true))
    (fun front => Console.wanted (variablesAfter start.environment front)
      (start.terminals.present d)) as (s.console.known d)

namespace Remembers

variable {start s : Session} {as : List Action}

theorem fresh (h : start.console = .fresh) : Remembers start [] start where
  environment := rfl
  terminals := rfl
  forced := by rw [h]; rfl
  verboseSet := nofun
  verbose := fun _ => by rw [h]; exact keeps_nil
  known := fun _ d => by
    rw [h]
    cases d with
    | out => exact keeps_nil
    | err => exact keeps_nil

/-- The answer about verbosity is what the row says. -/
theorem isVerboseAfter (h : Remembers start as s) :
    IsVerboseAfter start.environment as s.isVerbose := by
  show IsVerboseAfter _ _ (s.console.verbose.getD _)
  rw [h.environment]
  rcases hlast : lastVerbosity as with _ | on
  · obtain ⟨before, hbefore, hanswer⟩ := (h.verbose hlast).exists_getD
    refine .inr ⟨hlast, before, _, hbefore, valueAfter_get isName_verbose _ before, ?_⟩
    rw [hanswer]
    exact Environment.switch_eq_true
  · rw [h.verboseSet on hlast]
    exact .inl hlast

theorem isVerbose_iff (h : Remembers start as s) :
    s.isVerbose = true ↔ IsVerboseAfter start.environment as true := by
  constructor
  · intro hverbose
    rw [← hverbose]
    exact h.isVerboseAfter
  · intro hverbose
    exact h.isVerboseAfter.unique hverbose

/-- The answer about the colours of a stream is what the row says. -/
theorem isColoredAfter (h : Remembers start as s) (stream : Stream) :
    IsColoredAfter start.environment start.terminals as stream (s.isColored stream) := by
  unfold IsColoredAfter
  rw [Session.isColored_eq, h.forced, h.environment, h.terminals]
  rcases hlast : lastColors as with _ | on
  · refine .inr ⟨rfl, ?_⟩
    rcases stream.terminal? with _ | d
    · rfl
    · obtain ⟨before, hbefore, hanswer⟩ := (h.known hlast d).exists_getD
      refine ⟨before, _, _, hbefore, valueAfter_get isName_noColor _ before,
        valueAfter_get isName_disabled _ before, ?_⟩
      dsimp only
      rw [hanswer, Console.wanted_eq_true, ← Environment.switch_eq_true, Bool.not_eq_true]
  · exact .inl rfl

/-- One more action. -/
theorem perform (h : Remembers start as s) (a : Action) :
    Remembers start (as ++ [a]) (s.perform a) where
  environment := by rw [Session.environment_perform, variablesAfter_append, h.environment]
  terminals := (Session.terminals_perform s a).trans h.terminals
  forced := by
    rw [Session.forced_perform, h.forced, lastColors_append]
  verboseSet := by
    intro on hlast
    rw [lastVerbosity_append] at hlast
    rw [Session.verbose_perform]
    rcases hset : a.verbosity? with _ | on'
    · -- the setting is from before, and asking about it does not change it
      rw [hset, Option.none_or] at hlast
      have hverbose := h.verboseSet on hlast
      have hanswer : s.isVerbose = on := congrArg (fun v : Option Bool => v.getD _) hverbose
      rw [hverbose, hanswer, ite_self, Option.none_or]
    · rw [hset, Option.some_or] at hlast
      rw [Option.some_or, hlast]
  verbose := by
    intro hlast
    rw [lastVerbosity_append] at hlast
    obtain ⟨hset, hbefore⟩ := Option.or_eq_none_iff.mp hlast
    have hkeeps := h.verbose hbefore
    rw [Session.verbose_perform, hset, Option.none_or]
    split
    next hchecks =>
      have hanswer : s.isVerbose = s.console.verbose.getD
          ((variablesAfter start.environment as).switch (ascii "JKSPACK_VERBOSE") false) := by
        rw [← h.environment]
        rfl
      rw [hanswer]
      exact hkeeps.of_asks hchecks
    next hchecks => exact hkeeps.of_not_asks hchecks
  known := by
    intro hlast d
    rw [lastColors_append] at hlast
    obtain ⟨-, hbefore⟩ := Option.or_eq_none_iff.mp hlast
    have hkeeps := h.known hbefore d
    rw [Session.known_perform, h.forced, hbefore, h.environment, h.terminals]
    split
    next hasks => exact hkeeps.of_asks ((Action.asks_congr h.isVerbose_iff a).mp hasks.2)
    next hasks =>
      exact hkeeps.of_not_asks fun h' => hasks ⟨rfl, (Action.asks_congr h.isVerbose_iff a).mpr h'⟩

theorem performAll (h : Remembers start as s) (more : List Action) :
    Remembers start (as ++ more) (s.performAll more) := by
  induction more generalizing as s with
  | nil =>
    rw [List.append_nil]
    exact h
  | cons a more ih =>
    rw [List.append_cons]
    exact ih (h.perform a)

end Remembers

/-! ## Questions about other streams -/

/-- Sessions that answer alike about one stream, now and after the same actions. -/
structure AlikeFor (stream : Stream) (s s' : Session) : Prop where
  environment : s.environment = s'.environment
  terminals : s.terminals = s'.terminals
  forced : s.console.forced = s'.console.forced
  verbose : s.console.verbose = s'.console.verbose
  known : ∀ d, stream.terminal? = some d → s.console.known d = s'.console.known d

namespace AlikeFor

variable {stream : Stream} {s s' : Session}

theorem isVerbose (h : AlikeFor stream s s') : s.isVerbose = s'.isVerbose := by
  show s.console.verbose.getD _ = s'.console.verbose.getD _
  rw [h.verbose, h.environment]

theorem isColored (h : AlikeFor stream s s') : s.isColored stream = s'.isColored stream := by
  rw [Session.isColored_eq, Session.isColored_eq, h.forced, h.environment, h.terminals]
  rcases s'.console.forced with _ | on
  · rcases hstream : stream.terminal? with _ | d
    · rfl
    · dsimp only
      rw [h.known d hstream]
  · rfl

theorem perform (h : AlikeFor stream s s') (a : Action) :
    AlikeFor stream (s.perform a) (s'.perform a) where
  environment := by rw [Session.environment_perform, Session.environment_perform, h.environment]
  terminals := by rw [Session.terminals_perform, Session.terminals_perform, h.terminals]
  forced := by rw [Session.forced_perform, Session.forced_perform, h.forced]
  verbose := by rw [Session.verbose_perform, Session.verbose_perform, h.isVerbose, h.verbose]
  known := by
    intro d hstream
    simp only [Session.known_perform, h.isVerbose, h.known d hstream, h.environment,
      h.terminals, h.forced]

theorem performAll (h : AlikeFor stream s s') (as : List Action) :
    AlikeFor stream (s.performAll as) (s'.performAll as) := by
  induction as generalizing s s' with
  | nil => exact h
  | cons a as ih => exact ih (h.perform a)

/-- A question about the colours of a stream on another terminal does not matter. -/
theorem of_asked {a : Action} {question : Stream} (ha : a.asked? = some question)
    (hother : question.terminal? ≠ stream.terminal?) : AlikeFor stream (s.perform a) s := by
  obtain ⟨hcolors, hverbosity, hvariables, hchecks, hasks⟩ := Action.of_asked?_eq_some ha
  constructor
  · rw [Session.environment_perform, hvariables]
  · exact Session.terminals_perform s a
  · rw [Session.forced_perform, hcolors, Option.none_or]
  · rw [Session.verbose_perform, hverbosity, if_neg hchecks, Option.none_or]
  · intro d hstream
    rw [Session.known_perform, if_neg]
    rintro ⟨-, hquestion⟩
    exact hother (((hasks d _).mp hquestion).trans hstream.symm)

end AlikeFor

/-! ## The law of sessions -/

/-- After any row of actions, from a fresh console, a stream is coloured as was set last, or
else as environment and terminal had it when a stream on its terminal was first asked about;
notices of low urgency are shown as was set last, or else as the environment had it when that
was first asked; and leaving out a question about the colours of one stream changes no answer
about a stream on another terminal, nor about verbosity. -/
theorem settings_of_history (s : Session) (hfresh : s.console = .fresh) :
    (∀ as stream, IsColoredAfter s.environment s.terminals as stream
      ((s.performAll as).isColored stream))
    ∧ (∀ as, IsVerboseAfter s.environment as (s.performAll as).isVerbose)
    ∧ ∀ front question back stream elsewhere, question.asked? = some stream →
      stream.terminal? ≠ elsewhere.terminal? →
      (s.performAll (front ++ question :: back)).isColored elsewhere
          = (s.performAll (front ++ back)).isColored elsewhere
        ∧ (s.performAll (front ++ question :: back)).isVerbose
          = (s.performAll (front ++ back)).isVerbose := by
  have hremembers : ∀ as, Remembers s as (s.performAll as) := (Remembers.fresh hfresh).performAll
  refine ⟨fun as stream => (hremembers as).isColoredAfter stream,
    fun as => (hremembers as).isVerboseAfter, ?_⟩
  intro front question back stream elsewhere hquestion hother
  have halike : AlikeFor elsewhere ((s.performAll front).perform question) (s.performAll front) :=
    .of_asked hquestion hother
  have hsame := halike.performAll back
  have hfront : ∀ more, s.performAll (front ++ more) = (s.performAll front).performAll more :=
    fun more => List.foldl_append
  rw [hfront, hfront]
  exact ⟨hsame.isColored, hsame.isVerbose⟩

/-- A session on terminals, with nothing else to it. -/
def Session.bare : Session where
  environment := .empty
  terminals := ⟨true, true⟩
  files := ⟨[], []⟩
  now := .unset
  random := []
  explains := false
  console := .fresh
  out := []
  err := []

/-- Verbosity is switched on in front of a notice of low urgency and off behind it, and then
colours are switched off in front of a question about the output stream. -/
def Action.sample : List Action :=
  [.setVariable (ascii "JKSPACK_VERBOSE") (some (ascii " Yes\t")),
    .report (.remark .info (ascii "i")), .setVariable (ascii "JKSPACK_VERBOSE") none,
    .setVariable (ascii "JKSPACK_NO_COLOR") (some (ascii "ON")), .askColors .out]

/-- The notice was in time for verbosity and for the colours of the error and log streams, the
question about the output stream was not; and it can be left out. -/
theorem settings_of_history_sample :
    Session.bare.console = .fresh
      ∧ IsColoredAfter Session.bare.environment Session.bare.terminals Action.sample .log true
      ∧ IsColoredAfter Session.bare.environment Session.bare.terminals Action.sample .out false
      ∧ IsVerboseAfter Session.bare.environment Action.sample true
      ∧ (Session.bare.performAll Action.sample).isColored .err
        = (Session.bare.performAll (Action.sample.take 4)).isColored .err := by
  have hlog : (Session.bare.performAll Action.sample).isColored .log = true := by decide +kernel
  have hout : (Session.bare.performAll Action.sample).isColored .out = false := by decide +kernel
  have hverbose : (Session.bare.performAll Action.sample).isVerbose = true := by decide +kernel
  obtain ⟨hcolored, hshown, happart⟩ := settings_of_history Session.bare rfl
  refine ⟨rfl, hlog ▸ hcolored _ _, hout ▸ hcolored _ _, hverbose ▸ hshown _, ?_⟩
  exact (happart (Action.sample.take 4) (.askColors .out) [] .out .err rfl (by decide)).1

end Keystore
