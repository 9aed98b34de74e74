import Keystore.Bytes

/-!
# Environment variables

The environment is a row of lines `NAME=VALUE`. The value of a name is what
follows the name and `=` in the first line that begins so. Names and values end
in front of a zero byte. A variable that is not set reads as the empty text, so
"not set" and "set to nothing" are the same to every reader here.

Notes on the model:
- Setting a variable fails without a word for a name that is no name, as in a process where
  the failure is not looked at.
-/

namespace Keystore

/-- The environment, line by line. -/
structure Environment where
  lines : List Bytes
deriving DecidableEq

namespace Environment

/-- The sign `=` between a name and its value. -/
abbrev equals : UInt8 := 0x3D

/-- An environment without variables. -/
def empty : Environment := ⟨[]⟩

/-- What follows `name=` in a line that begins so. -/
def valueIn? (name line : Bytes) : Option Bytes := Bytes.afterPrefix? (name ++ [equals]) line

/-- The value of a variable, empty if it is not set. -/
def get (env : Environment) (name : Bytes) : Bytes :=
  let name := name.untilNul
  if name = [] then [] else (env.lines.findSome? (valueIn? name)).getD []

/-- Replaces the first line of a variable, or adds one at the end. -/
def put (name line : Bytes) : List Bytes → List Bytes
  | [] => [line]
  | l :: ls => if (valueIn? name l).isSome then line :: ls else l :: put name line ls

/-- Sets a variable, or removes it if there is no value. A name that is empty or
holds `=` is no name and changes nothing. -/
def set (env : Environment) (name : Bytes) (value : Option Bytes) : Environment :=
  let name := name.untilNul
  if name = [] ∨ equals ∈ name then env
  else match value with
    | some value => ⟨put name (name ++ equals :: value.untilNul) env.lines⟩
    | none => ⟨env.lines.filter fun l => (valueIn? name l).isNone⟩

/-- The value of a variable, or another text if that is empty. -/
def getD (env : Environment) (name fallback : Bytes) : Bytes :=
  match env.get name with
  | [] => fallback
  | value => value

/-- A text without blanks at its ends, in lower case. -/
def word (s : Bytes) : Bytes :=
  (Bytes.dropEndWhile Bytes.isSpace (s.dropWhile Bytes.isSpace)).map Bytes.lower

/-- The words that switch something on. -/
def onWords : List Bytes := ["1", "true", "yes", "on"].map Bytes.ascii

/-- The words that switch something off. -/
def offWords : List Bytes := ["0", "false", "no", "off"].map Bytes.ascii

/-- Whether a variable switches something on; `default` if it holds neither kind
of word. -/
def switch (env : Environment) (name : Bytes) (default : Bool) : Bool :=
  let value := word (env.get name)
  if value ∈ onWords then true
  else if value ∈ offWords then false
  else default

/-- The home directory. -/
def home (env : Environment) : Bytes :=
  env.getD (Bytes.ascii "HOME") (env.get (Bytes.ascii "USERPROFILE"))

end Environment

end Keystore
