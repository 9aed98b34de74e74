import Keystore.Bytes

/-!
# Files and paths

A file system as far as a key store needs one: directories, regular files, the
device that swallows everything and the one that is always full. Every node
stands at a location, the row of names from the root.

A path leads from the root or from the working directory to a location. Each of
its steps starts in a directory, also an empty step or `.`, which stay there, so
a path that ends in a slash leads to directories only. Paths end in front of a
zero byte; names and paths that are too long lead nowhere.

Notes on the model:
- There are no links, no permissions and no limits on space; a device is always full or never.
- A file is written as a whole or not at all. Only a device that takes nothing refuses data
  after it was opened, and it holds nothing that could be left half written.
-/

namespace Keystore

/-- What a location holds. -/
inductive FileNode where
  | directory
  | file (data : Bytes)
  /-- A device that reads as empty and swallows what is written. -/
  | void
  /-- A device that reads as empty and takes nothing but nothing. -/
  | full
deriving DecidableEq

/-- The names from the root. -/
abbrev Location := List Bytes

/-- A file system. The root itself is always a directory. -/
structure FileTree where
  nodes : List (Location × FileNode)
  /-- The working directory. -/
  here : Location
deriving DecidableEq

namespace FileTree

/-- The slash between the steps of a path. -/
abbrev slash : UInt8 := 0x2F

/-- The step that stays. -/
def dot : Bytes := Bytes.ascii "."

/-- The step to the parent directory. -/
def dotDot : Bytes := Bytes.ascii ".."

/-- The longest name. -/
abbrev nameLimit : Nat := 255

/-- The longest path. -/
abbrev pathLimit : Nat := 4095

/-- A file system with two devices and an empty working directory. -/
def initial : FileTree :=
  let dev := [Bytes.ascii "dev"]
  let work := [Bytes.ascii "work"]
  ⟨[(dev, .directory), (dev ++ [Bytes.ascii "null"], .void), (dev ++ [Bytes.ascii "full"], .full),
    (work, .directory)], work⟩

/-! ## Nodes -/

/-- What a location holds. -/
def node? (t : FileTree) (l : Location) : Option FileNode :=
  if l = [] then some .directory else t.nodes.lookup l

/-- Whether a location holds a directory. -/
def isDirectory (t : FileTree) (l : Location) : Bool := t.node? l == some .directory

/-- Replaces what a location holds, or adds it. -/
def putNode (l : Location) (n : FileNode) :
    List (Location × FileNode) → List (Location × FileNode)
  | [] => [(l, n)]
  | (k, m) :: rest => if k = l then (l, n) :: rest else (k, m) :: putNode l n rest

/-- The file system with another node at a location. -/
def put (t : FileTree) (l : Location) (n : FileNode) : FileTree :=
  { t with nodes := putNode l n t.nodes }

/-! ## Paths -/

/-- The steps of a path that is not cut or too long. -/
def steps (path : Bytes) : List Bytes := path.splitOn slash

/-- The location to start from. -/
def start (t : FileTree) (path : Bytes) : Location :=
  if path.head? = some slash then [] else t.here

/-- The location that one step leads to from a directory, whether or not there is
anything. -/
def enter? (t : FileTree) (l : Location) (step : Bytes) : Option Location :=
  if !t.isDirectory l then none
  else if step = [] ∨ step = dot then some l
  else if step = dotDot then some l.dropLast
  else if nameLimit < step.length then none
  else some (l ++ [step])

/-- Follows steps to something that exists. -/
def walk? (t : FileTree) : Location → List Bytes → Option Location
  | l, [] => some l
  | l, step :: more =>
    match t.enter? l step with
    | some next => if (t.node? next).isSome then t.walk? next more else none
    | none => none

/-- The path as it is followed: cut, and neither empty nor too long. -/
def usable? (path : Bytes) : Option Bytes :=
  let path := path.untilNul
  if path = [] ∨ pathLimit < path.length then none else some path

/-- The location of something that exists. -/
def locate? (t : FileTree) (path : Bytes) : Option Location :=
  (usable? path).bind fun path => t.walk? (t.start path) (steps path)

/-- The location of a file that exists or could be made: a name in a directory. -/
def target? (t : FileTree) (path : Bytes) : Option Location := do
  let path ← usable? path
  let last ← (steps path).getLast?
  let directory ← t.walk? (t.start path) (steps path).dropLast
  if last = [] ∨ last = dot ∨ last = dotDot then none else t.enter? directory last

/-! ## Reading and writing -/

/-- What a path leads to. -/
def find? (t : FileTree) (path : Bytes) : Option FileNode := (t.locate? path).bind t.node?

/-- Why a file could not be read or written. -/
inductive Refusal where
  /-- The path leads to nothing that can be opened. -/
  | notOpened
  /-- It was opened, but the data did not pass. -/
  | failed
deriving DecidableEq

/-- The contents of a file. -/
def read (t : FileTree) (path : Bytes) : Except Refusal Bytes :=
  match t.find? path with
  | some (.file data) => .ok data
  | some .void => .ok []
  | some .full => .ok []
  | some .directory => .error .failed
  | none => .error .notOpened

/-- Writes a file as a whole, making it if there is none. -/
def write (t : FileTree) (path data : Bytes) : Except Refusal FileTree :=
  match t.target? path with
  | none => .error .notOpened
  | some l =>
    match t.node? l with
    | some .directory => .error .notOpened
    | some .void => .ok t
    | some .full => if data = [] then .ok t else .error .failed
    | some (.file _) => .ok (t.put l (.file data))
    | none => .ok (t.put l (.file data))

/-- Follows steps and makes the directories that are missing. -/
def makeDirectories (t : FileTree) : Location → List Bytes → Location × FileTree
  | l, [] => (l, t)
  | l, step :: more =>
    match t.enter? l step with
    | none => (l, t)
    | some next =>
      let t := if (t.node? next).isSome then t else t.put next .directory
      t.makeDirectories next more

/-- Places a file, with the directories that lead to it. -/
def place (t : FileTree) (path data : Bytes) : FileTree :=
  let (_, made) := t.makeDirectories (t.start path) (steps path.untilNul).dropLast
  match made.write path data with
  | .ok after => after
  | .error _ => t

/-- A location below the working directory, as a path from there. -/
def relative? (t : FileTree) (l : Location) : Option Bytes :=
  if t.here.isPrefixOf l then some ((l.drop t.here.length).intersperse [slash]).flatten else none

/-- The regular files below the working directory, with their paths from there. -/
def files (t : FileTree) : List (Bytes × Bytes) :=
  t.nodes.filterMap fun (l, n) =>
    match n with
    | .file data => (t.relative? l).map fun path => (path, data)
    | _ => none

end FileTree

end Keystore
