import Keystore.Failure
import Keystore.Instant

/-!
# Reading the command line

A command line is the program's name, a command, and arguments, with global
flags anywhere among them. The options of `pack` and `verify` are pairs of a
flag and a value; the argument after a flag is its value, whatever it looks
like. Of an option that is kept once the last pair counts; the others are kept
in order.

Reading goes from left to right and stops at the first thing that is wrong.
-/

namespace Keystore.CommandLine

open Bytes (ascii)

/-! ## Global flags -/

/-- A flag that may stand anywhere. -/
inductive GlobalFlag where
  | verbose
  | noColor
deriving DecidableEq, Repr

/-- The global flag that an argument is. -/
def globalFlag? (arg : Bytes) : Option GlobalFlag :=
  if arg = ascii "--verbose" ∨ arg = ascii "-v" then some .verbose
  else if arg = ascii "--no-color" then some .noColor
  else none

/-- The arguments that are no global flags. -/
def withoutGlobalFlags (args : List Bytes) : List Bytes :=
  args.filter fun a => (globalFlag? a).isNone

/-! ## Pairs of flags and values -/

/-- An option of `pack`. -/
inductive PackFlag where
  | password
  | output
  | certificate
  | key
  | keyPassword
  | timestamp
deriving DecidableEq, Repr

/-- The option that an argument names. -/
def PackFlag.ofArg? (arg : Bytes) : Option PackFlag :=
  if arg = ascii "-p" ∨ arg = ascii "--password" then some .password
  else if arg = ascii "--out" ∨ arg = ascii "-o" then some .output
  else if arg = ascii "--cert" then some .certificate
  else if arg = ascii "--key" then some .key
  else if arg = ascii "--key-password" then some .keyPassword
  else if arg = ascii "--timestamp" then some .timestamp
  else none

/-- What a missing value is called. -/
def PackFlag.value : PackFlag → String
  | password => "password value"
  | output => "output path"
  | certificate => "certificate spec"
  | key => "key spec"
  | keyPassword => "key password"
  | timestamp => "timestamp value"

/-- The sign between an alias and what belongs to it. -/
abbrev equals : UInt8 := 0x3D

/-- The sign between the path of a key and the path of its chain. -/
abbrev colon : UInt8 := 0x3A

/-- Where to find a key and its chain. -/
structure KeySource where
  name : Bytes
  path : Bytes
  /-- The path of the chain; empty if there is none. -/
  chain : Bytes
deriving DecidableEq

/-- The options of `pack`. -/
structure PackOptions where
  output : Bytes
  password : Bytes
  /-- Aliases and paths of certificates. -/
  certificates : List (Bytes × Bytes)
  keys : List KeySource
  /-- Aliases and passwords for their keys. -/
  keyPasswords : List (Bytes × Bytes)
  time : Option Instant
deriving DecidableEq

/-- The options before any flag. -/
def PackOptions.initial : PackOptions := ⟨[], [], [], [], [], none⟩

/-- Splits `alias=value` at the first `=`; the alias may not be empty. -/
def assignment (flag value : Bytes) : Except Failure (Bytes × Bytes) :=
  match Bytes.splitAtMark equals value with
  | (b :: name, some rest) => .ok (b :: name, rest)
  | _ => .error (.notAssignment flag value)

/-- Splits the paths of a key and its chain at the first colon. -/
def KeySource.ofPaths (name paths : Bytes) : KeySource :=
  let (path, chain) := Bytes.splitAtMark colon paths
  ⟨name, path, chain.getD []⟩

/-- The options after one more pair. -/
def PackOptions.set (o : PackOptions) (option : PackFlag) (flag value : Bytes) :
    Except Failure PackOptions :=
  match option with
  | .password => .ok { o with password := value }
  | .output => .ok { o with output := value }
  | .certificate => (assignment flag value).map fun a =>
    { o with certificates := o.certificates ++ [a] }
  | .key => (assignment flag value).map fun (name, paths) =>
    { o with keys := o.keys ++ [KeySource.ofPaths name paths] }
  | .keyPassword => (assignment flag value).map fun a =>
    { o with keyPasswords := o.keyPasswords ++ [a] }
  | .timestamp =>
    match Instant.parse value with
    | .ok t => .ok { o with time := some t }
    | .error f => .error (.badTimestamp f)

/-- Reads pairs of flags and values. -/
def PackOptions.readPairs : PackOptions → List Bytes → Except Failure PackOptions
  | o, [] => .ok o
  | o, flag :: rest =>
    match PackFlag.ofArg? flag with
    | none => .error (.unknownFlag flag)
    | some option =>
      match rest with
      | [] => .error (.missingValue option.value)
      | value :: rest =>
        match o.set option flag value with
        | .ok o => readPairs o rest
        | .error f => .error f

/-- Reads the arguments of `pack`: an output and an entry are required. -/
def PackOptions.read (args : List Bytes) : Except Failure PackOptions :=
  match readPairs .initial args with
  | .error f => .error f
  | .ok o =>
    if o.output = [] then .error .missingOutput
    else if o.certificates = [] ∧ o.keys = [] then .error .nothingToPack
    else .ok o

/-- The options of `verify`. -/
structure VerifyOptions where
  input : Bytes
  password : Bytes
deriving DecidableEq

/-- Reads the pairs after the input path of `verify`. -/
def VerifyOptions.readPairs : VerifyOptions → List Bytes → Except Failure VerifyOptions
  | o, [] => .ok o
  | o, flag :: rest =>
    if flag = ascii "-p" ∨ flag = ascii "--password" then
      match rest with
      | [] => .error (.missingValue PackFlag.password.value)
      | value :: rest => readPairs { o with password := value } rest
    else .error (.unknownFlag flag)

/-- Reads the arguments of `verify`. -/
def VerifyOptions.read : List Bytes → Except Failure VerifyOptions
  | [] => .error .missingInput
  | input :: rest => readPairs ⟨input, []⟩ rest

/-! ## Commands -/

/-- A command with its arguments. -/
inductive Command where
  | pack (args : List Bytes)
  | verify (args : List Bytes)
  | info (path : Bytes)
  | version
  /-- No command, an unknown one, or `info` without a path. -/
  | usage
deriving DecidableEq

/-- The command of a command line without global flags. -/
def Command.ofArgs : List Bytes → Command
  | _ :: name :: rest =>
    if name = ascii "pack" then .pack rest
    else if name = ascii "verify" then .verify rest
    else if name = ascii "version" then .version
    else if name = ascii "info" then
      match rest with
      | path :: _ => .info path
      | [] => .usage
    else .usage
  | _ => .usage

end Keystore.CommandLine
