import Keystore.Environment
import Keystore.Notice

/-!
# Colours and verbosity

Text on a terminal may be coloured, and notices of low urgency are shown on
request only. Both are settings of the process. A setting that was made
explicitly wins. Otherwise a setting is found out the first time it is needed,
from the environment and the terminals as they are then, and kept: later changes
of the environment do not count.

The two terminals are looked at apart, because one may be a file while the other
is not. The error stream and the log stream share one terminal.

Notes on the model:
- In a process the settings are global variables; here they are one record that is handed on
  from question to question. Two threads that ask at the same time have no counterpart.
- All streams that are neither the output nor the error and log streams are one, `other`.
-/

namespace Keystore

/-- Where a text goes. -/
inductive Stream where
  | out
  | err
  | log
  /-- Any stream that is no terminal. -/
  | other
deriving DecidableEq, Repr

/-- Which of the two descriptors are terminals. -/
structure Terminals where
  out : Bool
  err : Bool
deriving DecidableEq

/-- The settings found out or made so far. -/
structure Console where
  /-- An explicit setting for the colours of all streams. -/
  forced : Option Bool
  /-- The colours of the output stream, once found out. -/
  outColors : Option Bool
  /-- The colours of the error and log streams, once found out. -/
  errColors : Option Bool
  /-- The verbosity, once set or found out. -/
  verbose : Option Bool
deriving DecidableEq

namespace Console

open Bytes (ascii)

/-- No setting is known. -/
def fresh : Console := ⟨none, none, none, none⟩

/-! ## Colours -/

/-- The colour of what is wrong with a file. -/
def red : Bytes := ascii "\x1b[0;31m"

/-- The colour in front of notices of low urgency. -/
def cyan : Bytes := ascii "\x1b[0;36m"

/-- The colour of errors. -/
def boldRed : Bytes := ascii "\x1b[1;31m"

/-- The colour of success. -/
def boldGreen : Bytes := ascii "\x1b[1;32m"

/-- The colour in front of warnings. -/
def boldYellow : Bytes := ascii "\x1b[1;33m"

/-- What ends a coloured text. -/
def reset : Bytes := ascii "\x1b[0m"

/-- Whether a stream on a terminal, or not, would be coloured. -/
def wanted (env : Environment) (terminal : Bool) : Bool :=
  let disabled := env.get (ascii "NO_COLOR") != []
    || env.switch (ascii "JKSPACK_NO_COLOR") false
  !disabled && terminal

/-- Whether a stream is coloured, and the settings after the question. -/
def colors (c : Console) (env : Environment) (t : Terminals) (stream : Stream) :
    Bool × Console :=
  match c.forced with
  | some on => (on, c)
  | none =>
    match stream with
    | .out =>
      let on := c.outColors.getD (wanted env t.out)
      (on, { c with outColors := some on })
    | .other => (false, c)
    | .err | .log =>
      let on := c.errColors.getD (wanted env t.err)
      (on, { c with errColors := some on })

/-- Sets the colours of all streams. -/
def setColors (c : Console) (on : Bool) : Console := { c with forced := some on }

/-- A text in a colour, which ends in front of a zero byte. -/
def wrap (color text : Bytes) : Bytes := color.untilNul ++ text ++ reset

/-! ## Verbosity -/

/-- Whether notices of low urgency are shown, and the settings after the question. -/
def verbosity (c : Console) (env : Environment) : Bool × Console :=
  let on := c.verbose.getD (env.switch (ascii "JKSPACK_VERBOSE") false)
  (on, { c with verbose := some on })

/-- Sets the verbosity. -/
def setVerbose (c : Console) (on : Bool) : Console := { c with verbose := some on }

end Console

end Keystore
