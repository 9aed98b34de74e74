import Keystore.CommandLine.Arguments
import Keystore.StoreFile
import Keystore.Shell

/-!
# Running a command line

`run` carries out a command line in a session and says with which status the
process ends: 0 for success, 1 for a failure and for a file that does not pass
`verify`, 2 if the command line names no command that can be run.

`pack` makes the whole file before it writes anything, and writing it is the last
thing it does to the files. A failure is told in one line on the error stream.

Notes on the model:
- Arguments end in front of a zero byte, as they do for a process.
- Memory does not run out, so there is no failure for that.
-/

namespace Keystore.CommandLine

open Bytes (ascii)

/-! ## Texts -/

/-- A line of text. -/
def line (s : String) : Bytes := ascii s ++ [Session.lineFeed]

/-- How the program is used. -/
def usageText : Bytes :=
  [ "Usage:",
    "  jkspack_cpp pack -o <out.jks> [-p <password>] [--cert <alias>=<cert.pem>]...",
    "              [--key <alias>=<key.pem>[:<chain.pem>]]... [--key-password <alias>=<password>]...",
    "              [--timestamp <ms>]",
    "Entries are stamped with the current time unless --timestamp (> 0) is given.",
    "  jkspack_cpp verify <file.jks> [-p <password>]",
    "  jkspack_cpp info <file.jks>",
    "  jkspack_cpp version",
    "Global flags: --verbose, --no-color",
    "Without -p the password is read from JKSPACK_STORE_PASSWORD." ].flatMap line

/-- The program's name and version. -/
def versionText : Bytes := line "jkspack 1.0.0"

/-- The status of success. -/
abbrev success : Nat := 0

/-- The status of a failure. -/
abbrev failure : Nat := 1

/-- The status of a command line that cannot be run. -/
abbrev misuse : Nat := 2

/-! ## Parts of commands -/

/-- Prints on the output stream. -/
def print (text : Bytes) : Shell Unit := modify fun s => s.print text

/-- A text in a colour, if the output stream is coloured. -/
def colored (text color : Bytes) : Shell Bytes := modifyGet (Session.paint text color .out)

/-- The password that a text stands for. -/
def passwordOf (text : Bytes) : Shell Bytes := do
  let s ← get
  return Password.ofText s.environment s.files text

/-- The password of the store: the given one, or else that of the environment. -/
def requirePassword (given : Bytes) : Shell Bytes := do
  let fallback := (← get).environment.get (ascii "JKSPACK_STORE_PASSWORD")
  let source := if given = [] then fallback else given
  match ← passwordOf source with
  | [] => throw .passwordRequired
  | password => return password

/-- A number in eight hexadecimal digits. -/
def hexNumber (n : UInt32) : Bytes := ascii "0x" ++ (BigEndian.u32 n).hex

/-- Prints what can be seen of a file without its password. -/
def showHeader (h : Header) : Shell Unit := do
  let bad ← if h.magicOk then pure [] else colored (ascii "(bad)") Console.red
  print (ascii "magic: " ++ hexNumber h.magic ++ marked bad ++ [Session.lineFeed])
  let unsupported ← if h.versionOk then pure [] else colored (ascii "(unsupported)") Console.red
  print (ascii "version: " ++ Bytes.decimal h.version.toNat ++ marked unsupported
    ++ [Session.lineFeed])
  print (ascii "entries: " ++ Bytes.decimal h.entryCount.toNat ++ [Session.lineFeed])
  print (ascii "body_len: " ++ Bytes.decimal h.bodyLength ++ line " bytes")
  print (ascii "digest: " ++ h.digest.hex ++ [Session.lineFeed])
where
  marked (mark : Bytes) : Bytes := if mark = [] then [] else ascii " " ++ mark

/-- Loads a certificate for an entry; only the first one in a file counts. -/
def loadCertificate (time : Instant) (source : Bytes × Bytes) : Shell CertificateEntry := do
  let (name, path) := source
  let certificates ← Shell.certificatesIn path
  if 1 < certificates.length then
    modify fun s => s.report (.extraCertificates path certificates.length name)
  return { name, time, der := certificates.headD [] }

/-- Loads a key and its chain for an entry. -/
def loadKeyEntry (time : Instant) (source : KeySource) : Shell KeyEntry := do
  let key ← Shell.keyIn source.path
  let chain ← if source.chain = [] then pure [] else Shell.certificatesIn source.chain
  return { name := source.name, time, key := some key, chain }

/-! ## Commands -/

/-- Packs certificates and keys into a file. -/
def runPack (o : PackOptions) : Shell Nat := do
  let store ← requirePassword o.password
  let own ← o.keyPasswords.mapM fun (name, text) => return (name, ← passwordOf text)
  let time := o.time.getD .unset
  let certificates ← o.certificates.mapM (loadCertificate time)
  let keys ← o.keys.mapM (loadKeyEntry time)
  let file ← Shell.task (Contents.toFile ⟨store, own⟩ ⟨certificates, keys⟩)
  Shell.write o.output file
  print (o.output ++ [Session.lineFeed])
  return success

/-- Checks the header and the trailer of a file. -/
def runVerify (o : VerifyOptions) : Shell Nat := do
  let password ← requirePassword o.password
  let file ← Shell.read o.input
  let header ← Shell.task (liftM (Header.read file))
  showHeader header
  let intact := Trailer.isValid password file
  let word ← if intact then colored (ascii "ok") Console.boldGreen
    else colored (ascii "mismatch (wrong password or corrupt file)") Console.boldRed
  print (ascii "integrity: " ++ word ++ [Session.lineFeed])
  return if intact && header.magicOk && header.versionOk then success else failure

/-- Shows the header of a file. -/
def runInfo (path : Bytes) : Shell Nat := do
  let file ← Shell.read path
  showHeader (← Shell.task (liftM (Header.read file)))
  return success

/-- Carries out a command. -/
def Command.run : Command → Shell Nat
  | .pack args => do runPack (← liftM (PackOptions.read args))
  | .verify args => do runVerify (← liftM (VerifyOptions.read args))
  | .info path => runInfo path
  | .version => do
    print versionText
    return success
  | .usage => do
    print usageText
    return misuse

/-! ## Command lines -/

/-- Applies a global flag. -/
def applyFlag (s : Session) : GlobalFlag → Session
  | .verbose => { s with console := s.console.setVerbose true }
  | .noColor => { s with console := s.console.setColors false }

/-- Carries out a command line in a session: the exit status, and the session
afterwards. Arguments end in front of a zero byte. -/
def run (args : List Bytes) (s : Session) : Nat × Session :=
  let args := args.map Bytes.untilNul
  let s := (args.filterMap globalFlag?).foldl applyFlag s
  match (Command.ofArgs (withoutGlobalFlags args)).run.run.run s with
  | (.ok status, s) => (status, s)
  | (.error f, s) => (failure, s.printMarked (ascii "Error: ") Console.boldRed f.shownWithKind)

end Keystore.CommandLine
