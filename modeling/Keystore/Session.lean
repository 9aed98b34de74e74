import Keystore.Console
import Keystore.FileTree
import Keystore.Supply

/-!
# The state of a process

What the operations of one process share: environment, terminals, files, time
and random bytes, the settings of the console, and what was printed so far.

The key store itself knows nothing of it: its tasks see the supply only. After a
task the random bytes that it took are gone, and the notices that it gave are
shown.

Notes on the model:
- Streams take whatever is printed. A terminal that is closed meanwhile has no counterpart.
- Nobody else changes files, variables or the clock while an operation is under way.
-/

namespace Keystore

/-- The state of a process. -/
structure Session where
  environment : Environment
  terminals : Terminals
  files : FileTree
  /-- The current time. -/
  now : Instant
  /-- The random bytes that are left. -/
  random : Bytes
  /-- Whether the source of random bytes says why it refuses. -/
  explains : Bool
  console : Console
  /-- What was printed on the output stream. -/
  out : Bytes
  /-- What was printed on the error stream. -/
  err : Bytes

namespace Session

/-! ## Printing -/

/-- A text as a stream shows it, in a colour if the stream is coloured. -/
def paint (text color : Bytes) (stream : Stream) (s : Session) : Bytes × Session :=
  let (on, console) := s.console.colors s.environment s.terminals stream
  (if on then Console.wrap color text else text, { s with console })

/-- Prints on the output stream. -/
def print (text : Bytes) (s : Session) : Session := { s with out := s.out ++ text }

/-- Prints on the error stream. -/
def printError (text : Bytes) (s : Session) : Session := { s with err := s.err ++ text }

/-- The mark in front of a notice, and its colour. -/
def mark : Severity → Bytes × Bytes
  | .warning => (Bytes.ascii "WARN: ", Console.boldYellow)
  | .info => (Bytes.ascii "INFO: ", Console.cyan)

/-- The end of a line. -/
abbrev lineFeed : UInt8 := 0x0A

/-- Prints a line with a mark in front. -/
def printMarked (mark color text : Bytes) (s : Session) : Session :=
  let (shown, s) := s.paint mark color .err
  s.printError (shown ++ text ++ [lineFeed])

/-- Shows a notice; one of low urgency only on request. -/
def report (s : Session) (n : Notice) : Session :=
  let (mark, color) := mark n.severity
  match n.severity with
  | .warning => s.printMarked mark color n.text
  | .info =>
    let (on, console) := s.console.verbosity s.environment
    let s := { s with console }
    if on then s.printMarked mark color n.text else s

/-- Shows notices in order. -/
def reportAll (s : Session) (ns : List Notice) : Session := ns.foldl report s

/-! ## Tasks -/

/-- The supply that a session has for a task. -/
def supply (s : Session) : Supply := ⟨s.now, s.random, s.explains, []⟩

/-- The session after a task: what it took is gone, its notices are shown. -/
def after (s : Session) (used : Supply) : Session :=
  { s with random := used.random }.reportAll used.notices

end Session

end Keystore
