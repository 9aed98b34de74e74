import Keystore.Fault

/-!
# Failures

Why an operation of the program failed: a fault of the key store, or something
around it, such as a file that cannot be read or a command line that cannot be
understood. As with faults, a failure is a cause, and its wording is a function
of it; what is shown of a wording ends in front of its first zero byte.

Notes on the model:
- A failure is a value. Where a process words it when it is raised and adds to the wording on
  the way out, the cause keeps what was added (`Fault.keyNotStored`, `badTimestamp`).
- Reasons that come from elsewhere in their own words are not told: the wording says only
  whose they are.
-/

namespace Keystore

/-- Why an operation of a process failed. -/
inductive Failure where
  | fault (f : Fault)
  /-- The source of random bytes refused. -/
  | refused (explained : Bool)
  | fileNotOpened (path : Bytes)
  | fileNotRead (path : Bytes)
  | outputNotOpened (path : Bytes)
  | outputNotWritten (path : Bytes)
  /-- A certificate file is empty. -/
  | emptyCertificates (path : Bytes)
  /-- A file holds no certificate. -/
  | noCertificate (path : Bytes)
  /-- A key file is empty. -/
  | emptyKey (path : Bytes)
  /-- A file holds no private key. -/
  | noKey (path : Bytes)
  /-- There is no password for the store. -/
  | passwordRequired
  /-- An option lacks its value. -/
  | missingValue (what : String)
  /-- A value is not of the form `alias=value`. -/
  | notAssignment (flag value : Bytes)
  | unknownFlag (flag : Bytes)
  | missingOutput
  | nothingToPack
  | badTimestamp (f : Fault)
  | missingInput
deriving DecidableEq

namespace Failure

open Bytes (ascii)

/-- The wording of a failure. -/
def message : Failure → Bytes
  | fault f => f.shown
  | refused explained => ascii (Fault.refusal explained)
  | fileNotOpened path => ascii "Failed to open file: " ++ path
  | fileNotRead path => ascii "Failed to read file: " ++ path
  | outputNotOpened path => ascii "Failed to open output file: " ++ path
  | outputNotWritten path => ascii "Failed to write file: " ++ path
  | emptyCertificates path => ascii "Empty certificate file: " ++ path
  | noCertificate path => ascii "Unsupported certificate format: " ++ path ++ ascii " (openssl)"
  | emptyKey path => ascii "Empty private key file: " ++ path
  | noKey path => ascii "Unsupported private key format: " ++ path ++ ascii " (openssl)"
  | passwordRequired => ascii "Password is required (-p or JKSPACK_STORE_PASSWORD)"
  | missingValue what => ascii "Missing " ++ ascii what
  | notAssignment flag value =>
    ascii "Expected <alias>=<value> for " ++ flag ++ ascii ": " ++ value
  | unknownFlag flag => ascii "Unknown flag: " ++ flag
  | missingOutput => ascii "Missing output path (-o)"
  | nothingToPack => ascii "Nothing to pack: give at least one --cert or --key"
  | badTimestamp f => ascii "Invalid --timestamp: " ++ f.shown
  | missingInput => ascii "Missing input path"

/-- The wording as far as it is shown: up to its first zero byte. -/
def shown (f : Failure) : Bytes := f.message.untilNul

/-- The wording with the kind of fault behind it, if a fault is the reason. -/
def shownWithKind (f : Failure) : Bytes :=
  match f with
  | fault cause => f.shown ++ ascii " [" ++ ascii cause.kind.name ++ ascii "]"
  | _ => f.shown

end Failure

end Keystore
