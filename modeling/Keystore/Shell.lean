import Keystore.Bundle
import Keystore.Failure
import Keystore.Session

/-!
# Operations of a process

A `Shell` computation works on the state of a process and may end in a failure.
Here are the operations that touch what lies around the key store: running its
tasks, taking random bytes, reading and writing files, and loading the
certificates and keys in them. A failure keeps the state as it is at that point.
-/

/-! ## Passwords given by name

A password can be given as it is or as the path of a file that holds it. If the
text leads to a regular file, the password is the contents of the file without
the line ends at its end; else it is the text itself. A text that begins with
`~/` leads below the home directory, if one is known. -/

namespace Keystore.Password

/-- What stands for the home directory. -/
def homeMark : Bytes := Bytes.ascii "~/"

/-- A path from a directory; a path from the root does not depend on it. -/
def join (directory path : Bytes) : Bytes :=
  if path.head? = some FileTree.slash then path
  else if directory.getLast? = some FileTree.slash then directory ++ path
  else directory ++ [FileTree.slash] ++ path

/-- The path that a text stands for. -/
def candidate (env : Environment) (text : Bytes) : Bytes :=
  match Bytes.afterPrefix? homeMark text with
  | some rest => if env.home = [] then text else join env.home rest
  | none => text

/-- A line feed or a carriage return. -/
def isLineEnd (b : UInt8) : Bool := b == 0x0A || b == 0x0D

theorem isLineEnd_iff {b : UInt8} : isLineEnd b = true ↔ b = 0x0A ∨ b = 0x0D := by
  simp [isLineEnd]

/-- The password that a text stands for. The empty text is no path. -/
def ofText (env : Environment) (files : FileTree) (text : Bytes) : Bytes :=
  if text = [] then text
  else match files.find? (candidate env text) with
    | some (.file data) => Bytes.dropEndWhile isLineEnd data
    | _ => text

end Keystore.Password

/-! ## Operations -/

namespace Keystore

/-- A computation on the state of a process that may fail. -/
abbrev Shell := ExceptT Failure (StateM Session)

namespace Shell

/-- Runs a task on the session's supply. -/
def task (t : Task α) : Shell α := do
  let s ← get
  let (result, used) := t.run.run s.supply
  set (s.after used)
  match result with
  | .ok a => return a
  | .error f => throw (.fault f)

/-- Takes random bytes. -/
def random (n : Nat) : Shell Bytes := do
  let s ← get
  let (bytes, used) := s.supply.draw n
  set (s.after used)
  match bytes with
  | some bytes => return bytes
  | none => throw (.refused s.explains)

/-- The contents of a file. -/
def read (path : Bytes) : Shell Bytes := do
  match (← get).files.read path with
  | .ok data => return data
  | .error .notOpened => throw (.fileNotOpened path)
  | .error .failed => throw (.fileNotRead path)

/-- Writes a file as a whole. -/
def write (path data : Bytes) : Shell Unit := do
  match (← get).files.write path data with
  | .ok files => modify fun s => { s with files }
  | .error .notOpened => throw (.outputNotOpened path)
  | .error .failed => throw (.outputNotWritten path)

/-- The certificates in a file: at least one. -/
def certificatesIn (path : Bytes) : Shell (List Bytes) := do
  match ← read path with
  | [] => throw (.emptyCertificates path)
  | data =>
    match Bundle.certificates data with
    | [] => throw (.noCertificate path)
    | certificates => return certificates

/-- The private key in a file. -/
def keyIn (path : Bytes) : Shell Key := do
  match ← read path with
  | [] => throw (.emptyKey path)
  | data =>
    match Bundle.key? data with
    | some key => return key
    | none => throw (.noKey path)

end Shell

end Keystore
