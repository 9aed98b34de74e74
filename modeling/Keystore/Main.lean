import Keystore.CommandLine.Run
import Std.Time.DateTime.Timestamp

/-!
# The program

The outer layer. `CommandLine.run` works on a session as a value; this module fills
that value from the process (arguments, variables, terminals, clock, random
bytes, and the files that the arguments could name), runs the command, and
carries out what has changed: files that differ are written, and the texts are
printed.
-/

namespace Keystore.Program

open Bytes (ascii)

/-- The variables that are looked at. -/
def variableNames : List String :=
  ["HOME", "USERPROFILE", "NO_COLOR", "JKSPACK_NO_COLOR", "JKSPACK_VERBOSE",
    "JKSPACK_STORE_PASSWORD"]

/-- The bytes of a text. -/
def bytes (text : String) : Bytes := text.toUTF8.toList

/-- A string of bytes as a text. -/
def text (s : Bytes) : String := (String.fromUTF8? s.toByteArray).getD ""

/-- The environment, as far as it is looked at. -/
def environment : IO Environment :=
  variableNames.foldlM (fun env name => do
    let value ← IO.getEnv name
    return env.set (bytes name) (value.map bytes)) Environment.empty

/-- The parts of an argument that could be paths: all of it, what follows the first
`=`, and that split at its first colon. -/
def pathsIn (arg : Bytes) : List Bytes :=
  match Bytes.splitAtMark CommandLine.equals arg with
  | (_, some rest) =>
    let (path, chain) := Bytes.splitAtMark CommandLine.colon rest
    [arg, rest, path, chain.getD []]
  | (_, none) => [arg]

/-- The paths that a command line could name. -/
def paths (env : Environment) (args : List Bytes) : List Bytes :=
  (env.get (ascii "JKSPACK_STORE_PASSWORD") :: args.flatMap pathsIn).map (Password.candidate env)

/-- A location as a path from the root. -/
def absolute (l : Location) : String := text (l.flatMap fun name => FileTree.slash :: name)

/-- Takes over what a location holds. -/
def observe (tree : FileTree) (l : Location) : IO FileTree := do
  if (tree.node? l).isSome then return tree
  try
    let path := (← IO.currentDir) / absolute l
    match (← path.metadata).type with
    | .dir => return tree.put l .directory
    | .file => return tree.put l (.file (← IO.FS.readBinFile path).toList)
    | _ => return tree
  catch _ => return tree

/-- Takes over what the steps of a path lead to. -/
def follow : FileTree → Location → List Bytes → IO FileTree
  | tree, _, [] => return tree
  | tree, l, step :: more => do
    match tree.enter? l step with
    | none => return tree
    | some next => follow (← observe tree next) next more

/-- The files that a command line could name. -/
def snapshot (candidates : List Bytes) : IO FileTree := do
  let here := (FileTree.steps (bytes (← IO.currentDir).toString)).filter (· ≠ [])
  let tree ← follow FileTree.initial [] here
  let tree := { tree with here }
  candidates.foldlM (fun tree path =>
    follow tree (tree.start path) (FileTree.steps path.untilNul)) tree

/-- Writes the files that differ. -/
def store (before after : FileTree) : IO Unit := do
  for (l, n) in after.nodes do
    if before.node? l != some n then
      match n with
      | .file data => IO.FS.writeBinFile (absolute l) data.toByteArray
      | _ => pure ()

/-- The session of this process. -/
def session (args : List Bytes) : IO Session := do
  let env ← environment
  let out ← (← IO.getStdout).isTty
  let err ← (← IO.getStderr).isTty
  let now ← Std.Time.Timestamp.now
  let random ← IO.getRandomBytes (USize.ofNat (KeyProtector.saltSize * args.length))
  return {
    environment := env, terminals := ⟨out, err⟩, files := ← snapshot (paths env args),
    now := ⟨Int64.ofInt now.toNanosecondsSinceUnixEpoch.val⟩, random := random.toList,
    explains := false, console := Console.fresh, out := [], err := [] }

end Keystore.Program

open Keystore

/-- Runs the command line of this process. -/
def main (args : List String) : IO UInt32 := do
  let words := Bytes.ascii "jkspack" :: args.map Program.bytes
  let before ← Program.session words
  let (status, after) := CommandLine.run words before
  (← IO.getStderr).write after.err.toByteArray
  try
    Program.store before.files after.files
  catch e =>
    IO.eprintln s!"Error: {e}"
    return UInt32.ofNat CommandLine.failure
  (← IO.getStdout).write after.out.toByteArray
  return UInt32.ofNat status
