import Keystore.Bytes

/-!
# Armoured blocks

Certificates and keys often come as text: a block has a line
`-----BEGIN label-----`, base64 lines, and a line `-----END label-----`. A file
may hold many blocks with any other text around them. A block may carry header
lines, which are separated from its contents by a blank line.

The reader works on the lines of the file. `next` looks for the next `BEGIN`
line and reads the block that it opens. The outcome is the block, or the news
that it is damaged, and either way the lines that have not been looked at, which
are fewer than before. A damaged block is one that breaks off, ends with another
label, holds nothing, or whose contents are not base64.

`write` produces a block in the common form.
-/

/-! ## Base64

The text form of the contents of an armoured block. `encode` writes the
canonical form. `decode?` reads more: blanks and line ends anywhere are skipped,
and a hyphen ends the text. What is left has to be symbols of the alphabet, at
most two pad characters after them, and a multiple of four in all. -/

namespace Keystore.Base64

/-- The symbol of a value below 64. -/
def symbol (n : Nat) : UInt8 :=
  if n < 26 then UInt8.ofNat (0x41 + n)
  else if n < 52 then UInt8.ofNat (0x61 + (n - 26))
  else if n < 62 then UInt8.ofNat (0x30 + (n - 52))
  else if n = 62 then 0x2B
  else 0x2F

/-- The value of a symbol. -/
def value? (b : UInt8) : Option Nat :=
  if 0x41 ≤ b ∧ b ≤ 0x5A then some (b.toNat - 0x41)
  else if 0x61 ≤ b ∧ b ≤ 0x7A then some (b.toNat - 0x61 + 26)
  else if 0x30 ≤ b ∧ b ≤ 0x39 then some (b.toNat - 0x30 + 52)
  else if b = 0x2B then some 62
  else if b = 0x2F then some 63
  else none

/-- The character `=`, which fills up the last group. -/
abbrev pad : UInt8 := 0x3D

/-- The hyphen, which ends a text. -/
abbrev hyphen : UInt8 := 0x2D

/-- Spaces, tabs and line ends, which are skipped. -/
def isBlank (b : UInt8) : Bool := b == 0x20 || b == 0x09 || b == 0x0D || b == 0x0A

/-- Three bytes as four symbols; fewer than three with padding. -/
def encode : Bytes → Bytes
  | [] => []
  | [a] => [symbol (a.toNat / 4), symbol (a.toNat % 4 * 16), pad, pad]
  | [a, b] =>
    [symbol (a.toNat / 4), symbol (a.toNat % 4 * 16 + b.toNat / 16),
      symbol (b.toNat % 16 * 4), pad]
  | a :: b :: c :: rest =>
    symbol (a.toNat / 4) :: symbol (a.toNat % 4 * 16 + b.toNat / 16)
      :: symbol (b.toNat % 16 * 4 + c.toNat / 64) :: symbol (c.toNat % 64) :: encode rest

/-- The bytes of groups of four values; a last group of three or two values
stands for two bytes or one. -/
def join : List Nat → Bytes
  | a :: b :: c :: d :: rest =>
    UInt8.ofNat (a * 4 + b / 16) :: UInt8.ofNat (b * 16 + c / 4) :: UInt8.ofNat (c * 64 + d)
      :: join rest
  | [a, b, c] => [UInt8.ofNat (a * 4 + b / 16), UInt8.ofNat (b * 16 + c / 4)]
  | [a, b] => [UInt8.ofNat (a * 4 + b / 16)]
  | _ => []

/-- Reads a text. -/
def decode? (text : Bytes) : Option Bytes :=
  let marks := (text.takeWhile (· != hyphen)).filter fun b => !isBlank b
  let symbols := marks.takeWhile (· != pad)
  let padding := marks.dropWhile (· != pad)
  if padding.all (· == pad) ∧ padding.length ≤ 2 ∧ marks.length % 4 = 0 then
    (symbols.mapM value?).map join
  else none

end Keystore.Base64

/-! ## Blocks -/

namespace Keystore.Armor

/-! ## Lines -/

/-- The line feed that ends a line. -/
abbrev newline : UInt8 := 0x0A

/-- A piece of a file that is looked at as one line. -/
structure Line where
  /-- The text without trailing blanks, control characters and bytes above 7F. -/
  text : Bytes
  /-- Whether the piece was cut off because the line is too long. -/
  cut : Bool
deriving DecidableEq

/-- The most bytes in one piece, the line feed included. -/
abbrev lineLimit : Nat := 254

/-- What is not kept at the end of a line. -/
def isTrailing (b : UInt8) : Bool := b ≤ 0x20 || 0x80 ≤ b

/-- The pieces read so far, latest first, and the bytes of the piece that is
being read, latest first, with their number. -/
structure Splitting where
  lines : List Bytes
  current : Bytes
  size : Nat

/-- Adds a byte; a line feed or the limit completes a piece. -/
def Splitting.push (s : Splitting) (b : UInt8) : Splitting :=
  let current := b :: s.current
  if b = newline ∨ lineLimit ≤ s.size + 1 then ⟨current.reverse :: s.lines, [], 0⟩
  else ⟨s.lines, current, s.size + 1⟩

/-- The pieces of a file, each with its line feed if it has one. -/
def pieces (s : Bytes) : List Bytes :=
  let r := s.foldl Splitting.push ⟨[], [], 0⟩
  (if r.current = [] then r.lines else r.current.reverse :: r.lines).reverse

/-- A piece as a line. -/
def Line.ofPiece (piece : Bytes) : Line :=
  ⟨Bytes.dropEndWhile isTrailing piece,
    piece.length == lineLimit && piece.getLast? != some newline⟩

/-- The mark that some editors put in front of UTF-8 text. -/
def byteOrderMark : Bytes := [0xEF, 0xBB, 0xBF]

/-- Drops a byte order mark in front of a piece that is more than the mark. -/
def dropMark (piece : Bytes) : Bytes :=
  match Bytes.afterPrefix? byteOrderMark piece with
  | some (b :: rest) => b :: rest
  | _ => piece

/-! ## Blocks -/

/-- An armoured block. -/
structure Block where
  label : Bytes
  /-- The header lines, each with a line feed. -/
  header : Bytes
  contents : Bytes
deriving DecidableEq

/-- What a line that opens a block begins with. -/
def beginMark : Bytes := Bytes.ascii "-----BEGIN "

/-- What a line that closes a block begins with. -/
def endMark : Bytes := Bytes.ascii "-----END "

/-- What both lines end with. -/
def dashes : Bytes := Bytes.ascii "-----"

/-- The label of a line that opens a block. -/
def labelOf? (line : Bytes) : Option Bytes :=
  match Bytes.afterPrefix? beginMark line with
  | none => none
  | some rest =>
    let label := rest.take (rest.length - dashes.length)
    if rest = label ++ dashes then some (Bytes.untilNul label) else none

/-- Looks for the line that opens a block. A byte order mark can stand in front
of the first line only. -/
def findBegin : Bool → List Bytes → Option (Bytes × List Bytes)
  | _, [] => none
  | first, piece :: rest =>
    let line := Line.ofPiece (if first then dropMark piece else piece)
    match labelOf? line.text with
    | some label => some (label, rest)
    | none => findBegin false rest

/-- Which part of a block is being read. -/
inductive Part where
  /-- Lines that are contents unless a blank line turns them into a header. -/
  | undecided
  /-- Lines of a header. -/
  | header
  /-- Lines after the header. -/
  | contents
deriving DecidableEq

/-- The reader's state inside a block. The texts stand latest line first. -/
structure Body where
  part : Part
  /-- The lines in front of a blank line. -/
  front : List Bytes
  /-- The lines after it. -/
  back : List Bytes
  /-- Whether the last piece was cut off, so that an empty one is no blank line. -/
  afterCut : Bool
  /-- Whether a short line has been read after the header: it has to be the last. -/
  closing : Bool

/-- The state in front of a block's first line. -/
def Body.initial : Body := ⟨.undecided, [], [], false, false⟩

/-- What a line does to a block. -/
inductive Step where
  | more (b : Body)
  | complete (header contents : Bytes)
  | damaged

/-- The text of a line as it is collected. -/
def collected (text : Bytes) : Bytes := Bytes.untilNul (text ++ [newline])

/-- The most characters in a line after a header. -/
abbrev contentLimit : Nat := 64

/-- The colon, which marks a header line. -/
abbrev colon : UInt8 := 0x3A

/-- Reads a blank line. The first one ends the header, a second one is damage. -/
def Body.blank (b : Body) : Step :=
  if b.part = .contents then .damaged else .more { b with part := .contents }

/-- Reads the last line of a block: without a blank line there was no header. -/
def Body.finish (b : Body) : Step :=
  let front := b.front.reverse.flatten
  let back := b.back.reverse.flatten
  if b.part = .undecided then .complete back front else .complete front back

/-- Collects a line. -/
def Body.collect (b : Body) (text : Bytes) : Step :=
  if b.part = .contents then
    if contentLimit < text.length then .damaged
    else .more { b with
      back := collected text :: b.back, closing := text.length < contentLimit }
  else .more { b with front := collected text :: b.front }

/-- Reads one line of the block with the given label. -/
def Body.step (label : Bytes) (b : Body) (line : Line) : Step :=
  let part := if b.part = .undecided ∧ colon ∈ line.text then .header else b.part
  let next := { b with part, afterCut := line.cut }
  if line.text = [] then
    if b.afterCut then .more next else next.blank
  else match Bytes.afterPrefix? endMark line.text with
    | some rest => if rest = label ++ dashes then next.finish else .damaged
    | none => if b.closing then .damaged else next.collect line.text

/-- The outcome of reading a block, with the pieces that were not looked at. -/
inductive Outcome where
  | block (b : Block) (rest : List Bytes)
  | damaged (rest : List Bytes)
deriving DecidableEq

/-- A block's outcome, once its texts are known. A block without contents is
damaged too. -/
def Outcome.ofTexts (label header text : Bytes) (rest : List Bytes) : Outcome :=
  match Base64.decode? text with
  | none => .damaged rest
  | some [] => .damaged rest
  | some (b :: contents) => .block ⟨label, header, b :: contents⟩ rest

/-- Reads the lines of a block. -/
def readBody (label : Bytes) : Body → List Bytes → Outcome
  | _, [] => .damaged []
  | b, piece :: rest =>
    match b.step label (Line.ofPiece piece) with
    | .more b => readBody label b rest
    | .complete header text => .ofTexts label header text rest
    | .damaged => .damaged rest

/-- Reads the next block; `none` when no line opens one. -/
def next (ps : List Bytes) : Option Outcome :=
  (findBegin true ps).map fun (label, rest) => readBody label Body.initial rest

/-- The pieces that an outcome leaves. -/
def Outcome.rest : Outcome → List Bytes
  | .block _ rest => rest
  | .damaged rest => rest

/-- Finding a block uses up its first line. -/
theorem length_findBegin {first : Bool} {ps rest : List Bytes} {label : Bytes}
    (h : findBegin first ps = some (label, rest)) : rest.length < ps.length := by
  induction ps generalizing first with
  | nil => simp [findBegin] at h
  | cons piece ps ih =>
    simp only [findBegin] at h
    split at h
    · simp only [Option.some.injEq, Prod.mk.injEq] at h
      simp [← h.2]
    · have := ih h
      simp only [List.length_cons]
      omega

/-- Reading a block does not give lines back. -/
theorem length_rest_readBody (label : Bytes) (b : Body) (ps : List Bytes) :
    (readBody label b ps).rest.length ≤ ps.length := by
  induction ps generalizing b with
  | nil => simp [readBody, Outcome.rest]
  | cons piece ps ih =>
    simp only [readBody]
    split
    · have := ih ‹Body›
      simp only [List.length_cons]
      omega
    · simp only [Outcome.ofTexts]
      split <;> simp [Outcome.rest]
    · simp [Outcome.rest]

/-- Reading a block uses up lines, so blocks can be read one after the other by
recursion on the lines. -/
theorem length_rest_next {ps : List Bytes} {o : Outcome} (h : next ps = some o) :
    o.rest.length < ps.length := by
  simp only [next, Option.map_eq_some_iff] at h
  obtain ⟨⟨label, rest⟩, hb, rfl⟩ := h
  exact Nat.lt_of_le_of_lt (length_rest_readBody ..) (length_findBegin hb)

/-- All outcomes in a row of pieces, in order. -/
def outcomes (ps : List Bytes) : List Outcome :=
  match _h : next ps with
  | none => []
  | some o => o :: outcomes o.rest
termination_by ps.length
decreasing_by exact length_rest_next _h

/-! ## Writing -/

/-- Cuts a text into rows of `width` characters. -/
def rows (width : Nat) (s : Bytes) : List Bytes :=
  match s with
  | [] => []
  | b :: rest => (b :: rest.take (width - 1)) :: rows width (rest.drop (width - 1))
termination_by s.length
decreasing_by simp only [List.length_drop, List.length_cons]; omega

/-- The lines of a block, without line ends. -/
def blockLines (label : Bytes) (width : Nat) (contents : Bytes) : List Bytes :=
  (beginMark ++ label ++ dashes) :: rows width (Base64.encode contents)
    ++ [endMark ++ label ++ dashes]

/-- A block as text, with the given line end after each line. -/
def write (lineEnd label : Bytes) (width : Nat) (contents : Bytes) : Bytes :=
  (blockLines label width contents).flatMap (· ++ lineEnd)

end Keystore.Armor
