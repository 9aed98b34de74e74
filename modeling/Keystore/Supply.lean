import Keystore.Notice
import Keystore.Instant

/-!
# What writing a key store draws on

Apart from its arguments, writing a key store needs the current time and random
bytes for salts, and it gives notices. `Supply` is the state of these, and
`Task` a computation that uses them and may end in a fault. A fault keeps the
notices given before it.

Random bytes come from a finite stock, front to back. A request for more than is
left is refused and takes nothing.

Notes on the model:
- There is one moment for all of a run, where a process asks its clock again for each entry
  without a moment of its own. The stamps of such entries are equal here; in a process the
  later one can be later by the time that writing takes.
- Notices are collected, and shown when the task has ended. Nothing else is printed in
  between, so what is to be read afterwards is the same.
-/

namespace Keystore

/-- The surroundings of writing a key store. -/
structure Supply where
  /-- The current time, which stands still. -/
  now : Instant
  /-- The random bytes that are left. -/
  random : Bytes
  /-- Whether the source of random bytes says why it refuses. -/
  explains : Bool
  /-- The notices given so far, in order. -/
  notices : List Notice
deriving DecidableEq

/-- A computation that draws on a supply and may end in a fault. -/
abbrev Task := ExceptT Fault (StateM Supply)

namespace Supply

/-- Takes `n` random bytes, if that many are left. -/
def draw (n : Nat) (s : Supply) : Option Bytes × Supply :=
  let bytes := s.random.take n
  if bytes.length = n then (some bytes, { s with random := s.random.drop n }) else (none, s)

end Supply

namespace Task

/-- Gives a notice. -/
def note (n : Notice) : Task Unit := modify fun s => { s with notices := s.notices ++ [n] }

/-- The current time. -/
def now : Task Instant := return (← get).now

/-- Random bytes for a salt. -/
def salt (n : Nat) : Task Bytes := do
  match ← modifyGet (Supply.draw n) with
  | some bytes => return bytes
  | none => throw (.noRandomness (← get).explains)

/-- Runs a task and turns a fault into another. -/
def blame (f : Fault → Fault) (t : Task α) : Task α := ExceptT.adapt f t

/-- Runs the task of a stage; a fault moves on to the stage of failure. -/
def during (stage : Stage) (t : Task α) : Task α :=
  tryCatch t fun fault => do
    note (.moved stage .failed)
    throw fault

end Task

end Keystore
