import Keystore.Fault

/-!
# Notices

What writing a key store reports on the way: the stages it goes through, and
things about the entries that their owner may want to know. A notice is data;
whether it is shown, and how, is up to whoever runs the writing.
-/

namespace Keystore

/-- The stages of writing a file. -/
inductive Stage where
  | start
  | header
  | certs
  | keypairs
  | digest
  | done
  | failed
deriving DecidableEq, Repr

namespace Stage

/-- The stages in the order of their numbers. -/
def all : List Stage := [start, header, certs, keypairs, digest, done, failed]

/-- The name by which a stage is reported. -/
def name : Stage → String
  | start => "start"
  | header => "header"
  | certs => "certs"
  | keypairs => "keypairs"
  | digest => "digest"
  | done => "done"
  | failed => "failed"

/-- The name of the stage with a given number. -/
def nameOf (number : Int) : String :=
  if number < 0 then "unknown" else ((all[number.toNat]?).map name).getD "unknown"

end Stage

/-- How urgent a notice is. -/
inductive Severity where
  /-- Always shown. -/
  | warning
  /-- Shown on request only. -/
  | info
deriving DecidableEq, Repr

/-- Something to report. -/
inductive Notice where
  /-- Writing went from one stage to the next. -/
  | moved (old new : Stage)
  /-- An entry has no moment and gets the current one. -/
  | clockUsed (name : Bytes)
  /-- A key comes without certificates. -/
  | emptyChain (name : Bytes)
  /-- A file is complete. -/
  | written (certificates keys size : Nat)
  /-- Of several certificates in a file only the first becomes an entry. -/
  | extraCertificates (path : Bytes) (count : Nat) (name : Bytes)
  /-- Any other text. -/
  | remark (severity : Severity) (text : Bytes)
deriving DecidableEq

namespace Notice

open Bytes (ascii decimal)

/-- How urgent a notice is. -/
def severity : Notice → Severity
  | moved _ _ => .info
  | clockUsed _ => .info
  | emptyChain _ => .warning
  | written _ _ _ => .info
  | extraCertificates _ _ _ => .warning
  | remark severity _ => severity

/-- The wording of a notice. -/
def text : Notice → Bytes
  | moved old new => ascii "pack: " ++ ascii old.name ++ ascii " -> " ++ ascii new.name
  | clockUsed name =>
    ascii "entry " ++ Fault.quoted name ++ ascii " has no timestamp; using current time"
  | emptyChain name =>
    ascii "keypair " ++ Fault.quoted name ++ ascii " has an empty certificate chain"
  | written certificates keys size =>
    ascii "pack: wrote " ++ decimal certificates ++ ascii " certificate(s), " ++ decimal keys
      ++ ascii " keypair(s), " ++ decimal size ++ ascii " bytes"
  | extraCertificates path count name =>
    path ++ ascii " holds " ++ decimal count
      ++ ascii " certificates; only the first is stored under \"" ++ name ++ ascii "\""
  | remark _ text => text

end Notice

end Keystore
