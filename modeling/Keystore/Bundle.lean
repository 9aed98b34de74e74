import Keystore.Armor
import Keystore.Certificate
import Keystore.Key

/-!
# Certificates and keys in a file

A file may hold certificates or a key as armoured blocks or as plain DER. The
armoured form is tried first and the DER form where that finds nothing; bytes
after a DER structure are ignored.

Certificates are read up to the first block that is damaged, blocks of other
labels being passed over, so those in front of the damage are still found.

A key is the first readable private key. It is looked for twice. The first
search passes over everything it cannot read, but gives up at a block with a
proper header. If that finds nothing, the second one goes past blocks of other
labels and insists that the first private key block is good.

Notes on the model:
- The size of a file is a number without a bound. A process hands it on as a signed 32-bit
  number, so files of 2 GiB and more are outside the model, here and in all that is said of
  the certificates and keys in files.
- The reading of blocks and encodings is done for a process by a library of its own. Its rules
  are written out here as far as they decide what is found; where it only has reasons to give,
  the failure names the library (`Failure.noCertificate`, `Failure.noKey`).
-/

namespace Keystore.Bundle

open Armor (Block Outcome)

/-! ## Certificates -/

/-- The labels of certificate blocks. -/
def certificateLabels : List Bytes :=
  [Bytes.ascii "CERTIFICATE", Bytes.ascii "X509 CERTIFICATE"]

/-- The certificate in a block, written anew: there must be no header, and bytes after
the certificate are dropped. -/
def certificateIn? (b : Block) : Option Bytes :=
  if b.header = [] then (Certificate.read? b.contents).map Certificate.encode else none

/-- The certificates in front of the first certificate block that is damaged. -/
def armouredCertificates : List Outcome → List Bytes
  | [] => []
  | .damaged _ :: _ => []
  | .block b _ :: more =>
    if b.label ∈ certificateLabels then
      match certificateIn? b with
      | some c => c :: armouredCertificates more
      | none => []
    else armouredCertificates more

/-- The certificates in a file; none if it holds none in either form. One that is not
armoured is taken as it is. -/
def certificates (file : Bytes) : List Bytes :=
  match armouredCertificates (Armor.outcomes (Armor.pieces file)) with
  | [] => ((Certificate.read? file).map Certificate.raw).toList
  | found => found

/-! ## Keys -/

/-- What the label of a block promises of a key in it. -/
inductive KeyLabel where
  /-- A key wrapped with the name of its algorithm. -/
  | anyKey
  /-- A key of one algorithm, in its own encoding or wrapped. -/
  | keyOf (a : Key.Algorithm)
deriving DecidableEq

/-- The labels of the blocks that the first search looks into. Among them are labels
under which only other things of an algorithm should stand. -/
def knownLabels : List (Bytes × KeyLabel) :=
  [("PRIVATE KEY", .anyKey),
    ("RSA PRIVATE KEY", .keyOf .rsa), ("RSA PUBLIC KEY", .keyOf .rsa),
    ("EC PRIVATE KEY", .keyOf .ec), ("EC PARAMETERS", .keyOf .ec),
    ("DSA PRIVATE KEY", .keyOf .dsa), ("DSA PUBLIC KEY", .keyOf .dsa),
    ("DSA PARAMETERS", .keyOf .dsa), ("DH PARAMETERS", .keyOf .dh),
    ("X9.42 DH PARAMETERS", .keyOf .x942Dh)].map fun (label, l) => (Bytes.ascii label, l)

/-- The label under which any private key stands, and the end of the other ones. -/
def anyKeyLabel : Bytes := Bytes.ascii "PRIVATE KEY"

/-- What stands in front of the end of a private key label, in lower case. -/
def keyNames : List (Bytes × KeyLabel) :=
  [("rsa ", .keyOf .rsa), ("dsa ", .keyOf .dsa), ("ec ", .keyOf .ec)].map
    fun (name, l) => (Bytes.ascii name, l)

/-- The label of a private key block, if it is one. The name of the algorithm may be
in upper or lower case. -/
def keyLabel? (label : Bytes) : Option KeyLabel :=
  let size := label.length - anyKeyLabel.length
  if label.drop size ≠ anyKeyLabel then none
  else if size = 0 then some .anyKey
  else keyNames.lookup ((label.take size).map Bytes.lower)

/-- The key that a block with a given promise holds. -/
def KeyLabel.read? (reach : Key.Reach) (l : KeyLabel) (contents : Bytes) : Option Key :=
  (Der.read? .basic contents).bind fun p => match l with
    | .anyKey => Key.ofWrapped? reach p.1
    | .keyOf a =>
      (Key.ofBare? reach a p.1).or ((Key.ofWrapped? reach p.1).filter (·.algorithm = a))

/-- The longest header that the first search does not mind. -/
abbrev headerLimit : Nat := 10

/-- The beginning of a header that tells how a block is processed. -/
def processMark : Bytes := Bytes.ascii "Proc-Type:"

/-- Whether a header tells of processing in another version than the one known. The
first search goes past a block with such a header. -/
def isForeign (header : Bytes) : Bool :=
  match Bytes.afterPrefix? processMark header with
  | some rest =>
    !Bytes.startsWith (rest.dropWhile fun b => b == 0x20 || b == 0x09) (Bytes.ascii "4,")
  | none => false

/-- The first search: passes over what it cannot read, and gives up at a block
with a proper header. -/
def lenientKey? : List Outcome → Option Key
  | [] => none
  | .damaged _ :: more => lenientKey? more
  | .block b _ :: more =>
    if headerLimit < b.header.length then
      if isForeign b.header then lenientKey? more else none
    else ((knownLabels.lookup b.label).bind (·.read? .usual b.contents)).or (lenientKey? more)

/-- The second search: the first private key block has to be good, and no block
up to it may be damaged. -/
def strictKey? : List Outcome → Option Key
  | [] => none
  | .damaged _ :: _ => none
  | .block b _ :: more =>
    match keyLabel? b.label with
    | some l => if b.header = [] then l.read? .full b.contents else none
    | none => strictKey? more

/-- The private key in a file. -/
def key? (file : Bytes) : Option Key :=
  let blocks := Armor.outcomes (Armor.pieces file)
  ((lenientKey? blocks).or (strictKey? blocks)).or (Key.front? file)

end Keystore.Bundle
