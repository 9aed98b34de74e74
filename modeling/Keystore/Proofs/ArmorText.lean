import Keystore.Proofs.Armor
import Keystore.Proofs.Base64
import Mathlib.Data.List.Forall2

/-!
# Blocks among other text

How a file is cut into pieces, and what that means for the blocks in it. A piece ends with a line
feed at the latest, so behind one the cutting starts afresh and a file can be taken apart
there (`pieces_append`). Pieces without the mark of a first line are passed over
(`findBegin_append`), a block that is read to its last line is read the same whatever
follows (`readBody_append`), and so the outcomes of a file are those of its blocks, one after the
other (`outcomes_of_opensBlock`, `outcomes_append`).

A block that was written in the common form is such a block, for lines of any length that fits
and for both line ends (`opensBlock_of_linesThen`).
-/

namespace Keystore.Armor

/-! ## Pieces -/

/-- Adding bytes does not look at the pieces that are complete. -/
theorem foldl_push (s : Bytes) (lines : List Bytes) (current : Bytes) (size : Nat) :
    s.foldl Splitting.push ⟨lines, current, size⟩
      = ⟨(s.foldl Splitting.push ⟨[], current, size⟩).lines ++ lines,
          (s.foldl Splitting.push ⟨[], current, size⟩).current,
          (s.foldl Splitting.push ⟨[], current, size⟩).size⟩ := by
  induction s generalizing lines current size with
  | nil => rfl
  | cons b s ih =>
    rw [List.foldl_cons, List.foldl_cons]
    by_cases h : b = newline ∨ lineLimit ≤ size + 1
    · have hpush : ∀ lines, Splitting.push ⟨lines, current, size⟩ b
          = ⟨(b :: current).reverse :: lines, [], 0⟩ := fun _ => if_pos h
      rw [hpush, hpush, ih (_ :: lines), ih [_], List.append_assoc, List.singleton_append]
    · have hpush : ∀ lines, Splitting.push ⟨lines, current, size⟩ b
          = ⟨lines, b :: current, size + 1⟩ := fun _ => if_neg h
      rw [hpush, hpush, ih lines]

/-- A line feed completes a piece. -/
theorem push_newline (r : Splitting) :
    r.push newline = ⟨(newline :: r.current).reverse :: r.lines, [], 0⟩ := by
  unfold Splitting.push
  exact if_pos (Or.inl rfl)

/-- The pieces of a file are its bytes. -/
theorem flatten_pieces (s : Bytes) : (pieces s).flatten = s := by
  have hfold : ∀ (s : Bytes) (r : Splitting),
      (s.foldl Splitting.push r).lines.reverse.flatten ++ (s.foldl Splitting.push r).current.reverse
        = r.lines.reverse.flatten ++ r.current.reverse ++ s := by
    intro s
    induction s with
    | nil => exact fun r => (List.append_nil _).symm
    | cons b s ih =>
      intro r
      rw [List.foldl_cons, ih]
      unfold Splitting.push
      dsimp only
      split
      · simp only [List.reverse_cons, List.reverse_nil, List.flatten_append, List.flatten_cons,
          List.flatten_nil, List.append_nil, List.append_assoc, List.singleton_append]
      · simp only [List.reverse_cons, List.append_assoc, List.singleton_append]
  have hall := hfold s ⟨[], [], 0⟩
  unfold pieces
  dsimp only
  split
  next hnone =>
    rw [hnone] at hall
    simpa using hall
  next => simpa using hall

theorem infix_of_mem_pieces {s piece : Bytes} (h : piece ∈ pieces s) : piece <:+: s := by
  obtain ⟨front, back, hsplit⟩ := List.append_of_mem h
  refine ⟨front.flatten, back.flatten, ?_⟩
  rw [← flatten_pieces s, hsplit, List.flatten_append, List.flatten_cons, List.append_assoc]

/-- Behind a line feed the cutting starts afresh. -/
theorem pieces_append (s rest : Bytes) :
    pieces (s ++ [newline] ++ rest) = pieces (s ++ [newline]) ++ pieces rest := by
  have hend : ∃ lines, (s ++ [newline]).foldl Splitting.push ⟨[], [], 0⟩ = ⟨lines, [], 0⟩ := by
    rw [List.foldl_append]
    exact ⟨_, push_newline _⟩
  obtain ⟨lines, hlines⟩ := hend
  unfold pieces
  dsimp only
  rw [List.foldl_append, hlines, foldl_push rest lines]
  dsimp only
  rw [if_pos rfl]
  split
  · rw [List.reverse_append]
  · rw [← List.cons_append, List.reverse_append]

theorem pieces_nil : pieces [] = [] := rfl

/-- A short line is one piece. -/
theorem pieces_line {line : Bytes} (hline : newline ∉ line)
    (hlength : line.length + 1 < lineLimit) :
    pieces (line ++ [newline]) = [line ++ [newline]] ∧ (line ≠ [] → pieces line = [line]) := by
  have hfold : ∀ (line current : Bytes) (size : Nat), newline ∉ line →
      size + line.length < lineLimit →
      line.foldl Splitting.push ⟨[], current, size⟩
        = ⟨[], line.reverse ++ current, size + line.length⟩ := by
    intro line
    induction line with
    | nil => exact fun _ _ _ _ => rfl
    | cons b line ih =>
      intro current size hline hlength
      obtain ⟨hb, hrest⟩ := not_or.mp (mt List.mem_cons.mpr hline)
      rw [List.length_cons] at hlength
      have hpush : Splitting.push ⟨[], current, size⟩ b = ⟨[], b :: current, size + 1⟩ := by
        refine if_neg (not_or.mpr ⟨Ne.symm hb, ?_⟩)
        show ¬ lineLimit ≤ size + 1
        omega
      rw [List.foldl_cons, hpush, ih _ _ hrest (by omega), List.reverse_cons, List.append_assoc,
        List.singleton_append, List.length_cons, Nat.add_assoc, Nat.add_comm 1]
  have hall := hfold line [] 0 hline (by omega)
  rw [List.append_nil] at hall
  refine ⟨?_, fun hsome => ?_⟩
  · unfold pieces
    dsimp only
    rw [List.foldl_append, hall]
    rw [List.foldl_cons, push_newline, List.foldl_nil, if_pos rfl]
    show [(newline :: line.reverse).reverse] = _
    rw [List.reverse_cons, List.reverse_reverse]
  · unfold pieces
    dsimp only
    rw [hall, if_neg (mt List.reverse_eq_nil_iff.mp hsome), List.reverse_reverse]
    rfl

/-! ## Lines -/

/-- The two ways to end a line. -/
def lineEnds : List Bytes := [[newline], [0x0D, newline]]

theorem exists_of_mem_lineEnds {lineEnd : Bytes} (h : lineEnd ∈ lineEnds) :
    ∃ front, lineEnd = front ++ [newline] ∧ newline ∉ front ∧ front.length ≤ 1 := by
  simp only [lineEnds, List.mem_cons, List.not_mem_nil, or_false] at h
  rcases h with rfl | rfl
  · exact ⟨[], rfl, by decide, by decide⟩
  · exact ⟨[0x0D], rfl, by decide, by decide⟩

/-- The bytes in front of `rest` are the given lines, each with one of the two line ends. The last
line of a file can do without. -/
inductive LinesThen : List Bytes → Bytes → Bytes → Prop
  | nil (rest : Bytes) : LinesThen [] rest rest
  | cons (line : Bytes) {lineEnd : Bytes} (hend : lineEnd ∈ lineEnds) {lines : List Bytes}
    {s rest : Bytes} (more : LinesThen lines s rest) :
    LinesThen (line :: lines) (line ++ lineEnd ++ s) rest
  | last (line : Bytes) : LinesThen [line] line []

/-- Behind a line end the cutting starts afresh. -/
theorem pieces_append_of_mem_lineEnds {lineEnd : Bytes} (h : lineEnd ∈ lineEnds) (line s : Bytes) :
    pieces (line ++ lineEnd ++ s) = pieces (line ++ lineEnd) ++ pieces s := by
  obtain ⟨front, rfl, -, -⟩ := exists_of_mem_lineEnds h
  rw [← List.append_assoc line, pieces_append]

/-- A line that is one piece, and of which nothing is cut off. -/
structure IsWhole (line : Bytes) : Prop where
  newline : newline ∉ line
  length : line.length ≤ 250
  last : ∃ front b, line = front ++ [b] ∧ isTrailing b = false

/-- A piece is looked at as the given line. -/
def Shows (line piece : Bytes) : Prop := Line.ofPiece piece = ⟨line, false⟩

theorem IsWhole.shows_append {line lineEnd : Bytes} (h : IsWhole line)
    (hend : lineEnd.all isTrailing = true) (hlength : lineEnd.length ≤ 2) :
    Shows line (line ++ lineEnd) := by
  obtain ⟨front, b, rfl, hb⟩ := h.last
  have htext : Bytes.dropEndWhile isTrailing (front ++ [b] ++ lineEnd) = front ++ [b] := by
    rw [Bytes.dropEndWhile, List.reverse_append, List.reverse_append, List.reverse_singleton,
      List.dropWhile_append_of_pos fun x hx => List.all_eq_true.mp hend x (List.mem_reverse.mp hx),
      List.singleton_append, List.dropWhile_cons_of_neg (by rw [hb]; exact Bool.false_ne_true),
      List.reverse_cons, List.reverse_reverse]
  have hshort : ((front ++ [b] ++ lineEnd).length == lineLimit) = false := by
    have hline := h.length
    have hlimit : lineLimit = 254 := rfl
    rw [beq_eq_false_iff_ne, List.length_append]
    omega
  unfold Shows Line.ofPiece
  rw [htext, hshort]
  rfl

theorem IsWhole.shows {line lineEnd : Bytes} (h : IsWhole line) (hend : lineEnd ∈ lineEnds) :
    Shows line (line ++ lineEnd) := by
  have hspec : ∀ e ∈ lineEnds, e.all isTrailing = true ∧ e.length ≤ 2 := by decide
  exact h.shows_append (hspec lineEnd hend).1 (hspec lineEnd hend).2

theorem IsWhole.ne_nil {line : Bytes} (h : IsWhole line) : line ≠ [] := by
  obtain ⟨front, b, rfl, -⟩ := h.last
  exact List.append_ne_nil_of_right_ne_nil _ (List.cons_ne_nil _ _)

/-- Lines in front of a file are its first pieces. -/
theorem exists_pieces_of_linesThen {lines : List Bytes} {s rest : Bytes}
    (h : LinesThen lines s rest) (hwhole : ∀ line ∈ lines, IsWhole line) :
    ∃ ps, pieces s = ps ++ pieces rest ∧ List.Forall₂ Shows lines ps := by
  induction h with
  | nil rest => exact ⟨[], rfl, .nil⟩
  | @cons line lineEnd hend lines s rest _ ih =>
    obtain ⟨hline, hlines⟩ := List.forall_mem_cons.mp hwhole
    obtain ⟨ps, hps, hshows⟩ := ih hlines
    have hpiece : pieces (line ++ lineEnd) = [line ++ lineEnd] := by
      have hlength := hline.length
      obtain ⟨front, rfl, hfront, hshort⟩ := exists_of_mem_lineEnds hend
      have hnewline : newline ∉ line ++ front := by
        rw [List.mem_append, not_or]
        exact ⟨hline.newline, hfront⟩
      rw [← List.append_assoc]
      exact (pieces_line hnewline (by simp only [List.length_append, lineLimit]; omega)).1
    refine ⟨(line ++ lineEnd) :: ps, ?_, .cons (hline.shows hend) hshows⟩
    rw [pieces_append_of_mem_lineEnds hend, hpiece, hps]
    rfl
  | last line =>
    have hline := hwhole line List.mem_cons_self
    have hlength := hline.length
    refine ⟨[line], ?_, .cons ?_ .nil⟩
    · rw [(pieces_line hline.newline (by simp only [lineLimit]; omega)).2 hline.ne_nil]
      rfl
    · have hshows : Shows line (line ++ []) := hline.shows_append rfl (by decide)
      rwa [List.append_nil] at hshows

/-! ## Text without blocks -/

/-- A piece without the mark of a first line does not open a block. -/
theorem labelOf?_eq_none {piece : Bytes} (h : ¬ beginMark <:+: piece) :
    labelOf? (Line.ofPiece piece).text = none := by
  unfold labelOf?
  split
  next => rfl
  next rest hbegin =>
    have htext := Bytes.eq_append_of_afterPrefix? hbegin
    have hfront : beginMark <+: Bytes.dropEndWhile isTrailing piece := ⟨rest, htext.symm⟩
    exact absurd (hfront.trans (dropEndWhile_isPrefix isTrailing piece)).isInfix h

theorem dropMark_isSuffix (piece : Bytes) : dropMark piece <:+ piece := by
  unfold dropMark
  split
  next b rest hmark =>
    rw [Bytes.eq_append_of_afterPrefix? hmark]
    exact List.suffix_append _ _
  next => exact List.suffix_rfl

/-- Pieces that do not open a block are passed over. -/
theorem findBegin_append {ps : List Bytes} (h : ∀ piece ∈ ps, ¬ beginMark <:+: piece) (first : Bool)
    (qs : List Bytes) : findBegin first (ps ++ qs) = findBegin (first && ps.isEmpty) qs := by
  induction ps generalizing first with
  | nil => rw [List.nil_append, List.isEmpty_nil, Bool.and_true]
  | cons piece ps ih =>
    obtain ⟨hpiece, hps⟩ := List.forall_mem_cons.mp h
    have hnone : labelOf? (Line.ofPiece (if first then dropMark piece else piece)).text = none := by
      apply labelOf?_eq_none
      intro hinside
      split at hinside
      next => exact hpiece (hinside.trans (dropMark_isSuffix piece).isInfix)
      next => exact hpiece hinside
    rw [List.cons_append, findBegin]
    simp only [hnone]
    rw [ih hps, Bool.false_and, List.isEmpty_cons, Bool.and_false]

/-- If a mark in front of the file makes no difference to what follows, it makes none to pieces that
do not open a block. -/
theorem findBegin_first_append {ps qs : List Bytes} (h : ∀ piece ∈ ps, ¬ beginMark <:+: piece)
    (hfirst : findBegin false qs = findBegin true qs) :
    findBegin false (ps ++ qs) = findBegin true (ps ++ qs) := by
  rw [findBegin_append h, findBegin_append h, Bool.false_and]
  cases ps with
  | nil => exact hfirst
  | cons piece ps => rfl

/-- A text in which no line opens a block has none. -/
theorem outcomes_eq_nil {s : Bytes} (h : ¬ beginMark <:+: s) : outcomes (pieces s) = [] := by
  have hpieces : ∀ piece ∈ pieces s, ¬ beginMark <:+: piece :=
    fun piece hpiece hinside => h (hinside.trans (infix_of_mem_pieces hpiece))
  have hnone : findBegin true (pieces s) = none := by
    have hall := findBegin_append hpieces true []
    rw [List.append_nil] at hall
    exact hall
  rw [outcomes_eq, blocks_of_findBegin_none hnone]
  rfl

/-! ## Blocks -/

/-- Pieces that are one block, from the line that opens it to its last line. -/
inductive OpensBlock (label : Bytes) (b : Block) : List Bytes → Prop
  | intro {piece : Bytes} {ps : List Bytes}
    (hopens : labelOf? (Line.ofPiece piece).text = some label)
    (hread : readBody label .initial ps = .block b []) : OpensBlock label b (piece :: ps)

theorem OpensBlock.label_eq {label : Bytes} {b : Block} {ps : List Bytes}
    (h : OpensBlock label b ps) : b.label = label := by
  cases h with
  | intro _ hread => exact label_of_readBody hread

/-- What stands behind a block does not change how it is read. -/
theorem readBody_append {label : Bytes} {b : Body} {ps rest : List Bytes} {block : Block}
    (h : readBody label b ps = .block block rest) (qs : List Bytes) :
    readBody label b (ps ++ qs) = .block block (rest ++ qs) := by
  induction ps generalizing b with
  | nil => cases h
  | cons piece ps ih =>
    rw [readBody] at h
    rw [List.cons_append, readBody]
    cases hstep : b.step label (Line.ofPiece piece) with
    | more b' =>
      rw [hstep] at h
      exact ih h
    | complete header text =>
      rw [hstep] at h
      unfold Outcome.ofTexts at h ⊢
      dsimp only at h ⊢
      rcases hcontents : Base64.decode? text with _ | _ | ⟨first, contents⟩
      · rw [hcontents] at h
        cases h
      · rw [hcontents] at h
        cases h
      · rw [hcontents] at h
        cases h
        rfl
    | damaged =>
      rw [hstep] at h
      cases h

/-- A block is found where it begins, be it at the front of a file or not. -/
theorem findBegin_of_opensBlock {label : Bytes} {b : Block} {ps : List Bytes}
    (h : OpensBlock label b ps) (qs : List Bytes) :
    ∃ more, (∀ first, findBegin first (ps ++ qs) = some (label, more ++ qs))
      ∧ readBody label .initial more = .block b [] := by
  cases h with
  | @intro piece more hopens hread =>
    refine ⟨more, fun first => ?_, hread⟩
    have hmark : (if first then dropMark piece else piece) = piece := by
      rw [dropMark_of_labelOf? hopens, ite_self]
    rw [List.cons_append, findBegin]
    simp only [hmark, hopens]

/-- A mark in front of the file makes no difference to a block. -/
theorem findBegin_first_of_opensBlock {label : Bytes} {b : Block} {ps : List Bytes}
    (h : OpensBlock label b ps) (qs : List Bytes) :
    findBegin false (ps ++ qs) = findBegin true (ps ++ qs) := by
  obtain ⟨more, hbegin, -⟩ := findBegin_of_opensBlock h qs
  rw [hbegin, hbegin]

/-- The outcomes of a block, and of what follows it. -/
theorem outcomes_of_opensBlock {label : Bytes} {b : Block} {ps : List Bytes}
    (h : OpensBlock label b ps) (qs : List Bytes) :
    outcomes (ps ++ qs) = .block b qs :: outcomes qs := by
  obtain ⟨more, hbegin, hread⟩ := findBegin_of_opensBlock h qs
  have hbody := readBody_append hread qs
  rw [outcomes_eq, outcomes_eq, blocks_of_findBegin (hbegin true), hbody]
  rfl

/-- The outcomes of what follows pieces that do not open a block, if the first piece that
follows opens a block with or without a byte order mark in front of the file. -/
theorem outcomes_append {ps qs : List Bytes} (h : ∀ piece ∈ ps, ¬ beginMark <:+: piece)
    (hfirst : findBegin false qs = findBegin true qs) : outcomes (ps ++ qs) = outcomes qs := by
  have hbegin : findBegin true (ps ++ qs) = findBegin true qs := by
    rw [findBegin_append h]
    cases ps with
    | nil => rfl
    | cons piece ps => exact hfirst
  rw [outcomes_eq, outcomes_eq]
  rcases hsome : findBegin true qs with _ | ⟨label, rest⟩
  · rw [blocks_of_findBegin_none hsome, blocks_of_findBegin_none (hbegin.trans hsome)]
  · rw [blocks_of_findBegin hsome, blocks_of_findBegin (hbegin.trans hsome)]

/-! ## Blocks in the common form -/

/-- A label that fits a line and is not cut. -/
structure IsLabel (label : Bytes) : Prop where
  length : label.length ≤ 200
  bytes : ∀ b ∈ label, b ≠ newline ∧ b ≠ Bytes.nul ∧ b ≠ colon

theorem isWhole_mark {mark label : Bytes} (h : IsLabel label) (hlength : mark.length ≤ 11)
    (hmark : newline ∉ mark) : IsWhole (mark ++ label ++ dashes) where
  newline := by
    rw [List.mem_append, List.mem_append, not_or, not_or]
    exact ⟨⟨hmark, fun hmem => (h.bytes newline hmem).1 rfl⟩, by decide⟩
  length := by
    have hlabel := h.length
    have hdashes : dashes.length = 5 := by decide
    rw [List.length_append, List.length_append, hdashes]
    omega
  last := ⟨mark ++ label ++ List.replicate 4 0x2D, 0x2D, by
    rw [List.append_assoc _ (List.replicate 4 0x2D)]
    rfl, by decide⟩

theorem labelOf?_mark {label : Bytes} (h : IsLabel label) :
    labelOf? (beginMark ++ label ++ dashes) = some label := by
  have hcut : label.untilNul = label := by
    unfold Bytes.untilNul
    refine List.takeWhile_eq_self_iff.mpr fun b hb => ?_
    exact bne_iff_ne.mpr (h.bytes b hb).2.1
  have htake : (label ++ dashes).take ((label ++ dashes).length - dashes.length) = label := by
    rw [List.length_append, Nat.add_sub_cancel, List.take_left]
  unfold labelOf?
  rw [List.append_assoc, Bytes.afterPrefix?_append]
  dsimp only
  rw [htake, if_pos rfl, hcut]

/-- Rows are not empty and not too long, and joined they are the text. -/
theorem rows_spec {width : Nat} (hwidth : 0 < width) (s : Bytes) :
    (rows width s).flatten = s
      ∧ ∀ row ∈ rows width s, row ≠ [] ∧ row.length ≤ width ∧ ∀ b ∈ row, b ∈ s := by
  fun_induction rows width s with
  | case1 => exact ⟨rfl, List.forall_mem_nil _⟩
  | case2 b rest ih =>
    obtain ⟨hflatten, hrows⟩ := ih
    refine ⟨?_, List.forall_mem_cons.mpr ⟨⟨List.cons_ne_nil _ _, ?_, ?_⟩, ?_⟩⟩
    · rw [List.flatten_cons, hflatten, List.cons_append, List.take_append_drop]
    · rw [List.length_cons, List.length_take]
      omega
    · intro x hx
      rcases List.mem_cons.mp hx with rfl | hx
      · exact List.mem_cons_self
      · exact List.mem_cons_of_mem b (List.mem_of_mem_take hx)
    · intro row hrow
      obtain ⟨hsome, hlength, hmem⟩ := hrows row hrow
      exact ⟨hsome, hlength, fun x hx => List.mem_cons_of_mem b (List.mem_of_mem_drop (hmem x hx))⟩

/-- A row of an encoding. -/
structure IsRow (row : Bytes) : Prop where
  ne_nil : row ≠ []
  marks : ∀ b ∈ row, Base64.IsMark b

theorem IsRow.isWhole {row : Bytes} (h : IsRow row) (hlength : row.length ≤ 250) : IsWhole row where
  newline hmem := absurd rfl ((h.marks newline hmem).of_forall (p := fun b => b ≠ newline)
    (by decide) (by decide))
  length := hlength
  last := by
    refine ⟨row.dropLast, row.getLast h.ne_nil, (List.dropLast_append_getLast h.ne_nil).symm, ?_⟩
    exact (h.marks _ (List.getLast_mem h.ne_nil)).of_forall (p := fun b => isTrailing b = false)
      (by decide) (by decide)

/-- The body of a block without a header, with the given lines read so far. -/
def Body.plain (front : List Bytes) : Body := ⟨.undecided, front, [], false, false⟩

/-- Only a colon makes a line part of a header. -/
theorem Body.plain_part {text : Bytes} (h : colon ∉ text) (front : List Bytes) :
    (if (Body.plain front).part = .undecided ∧ colon ∈ text then Part.header
      else (Body.plain front).part) = .undecided := if_neg fun hboth => h hboth.2

/-- A row of an encoding is collected. -/
theorem IsRow.step_eq {row : Bytes} (h : IsRow row) (label : Bytes) (front : List Bytes) :
    (Body.plain front).step label ⟨row, false⟩ = .more (.plain ((row ++ [newline]) :: front)) := by
  have hcolon : colon ∉ row := fun hmem =>
    absurd rfl ((h.marks colon hmem).of_forall (p := fun b => b ≠ colon) (by decide) (by decide))
  have hnul : Bytes.untilNul (row ++ [newline]) = row ++ [newline] := by
    unfold Bytes.untilNul
    refine List.takeWhile_eq_self_iff.mpr fun b hb => ?_
    rcases List.mem_append.mp hb with hmem | hmem
    · exact (h.marks b hmem).of_forall (p := fun b => (b != Bytes.nul) = true) (by decide)
        (by decide)
    · rw [List.mem_singleton.mp hmem]
      decide
  have hend : Bytes.afterPrefix? endMark row = none := by
    obtain ⟨b, rest, rfl⟩ := List.exists_cons_of_ne_nil h.ne_nil
    have hdash : (0x2D : UInt8) ≠ b :=
      (h.marks b List.mem_cons_self).of_forall (p := fun b => 0x2D ≠ b) (by decide) (by decide)
    exact if_neg hdash
  unfold Body.step
  dsimp only
  rw [Body.plain_part hcolon, if_neg h.ne_nil, hend]
  show (if false = true then _ else Body.collect (.plain front) row) = _
  rw [if_neg Bool.false_ne_true]
  unfold Body.collect collected
  rw [hnul]
  rfl

/-- The last line of a block completes it. -/
theorem step_endMark {label : Bytes} (h : IsLabel label) (front : List Bytes) :
    (Body.plain front).step label ⟨endMark ++ label ++ dashes, false⟩
      = .complete [] front.reverse.flatten := by
  have hcolon : colon ∉ endMark ++ label ++ dashes := by
    rw [List.mem_append, List.mem_append, not_or, not_or]
    exact ⟨⟨by decide, fun hmem => (h.bytes colon hmem).2.2 rfl⟩, by decide⟩
  have hsome : endMark ++ label ++ dashes ≠ [] :=
    List.append_ne_nil_of_right_ne_nil _ (by decide)
  unfold Body.step
  dsimp only
  rw [Body.plain_part hcolon, if_neg hsome, List.append_assoc, Bytes.afterPrefix?_append]
  dsimp only
  rw [if_pos rfl]
  rfl

/-- Rows and a last line are read as the text in the rows. -/
theorem readBody_of_shows {label : Bytes} (hlabel : IsLabel label) {rs ps : List Bytes}
    (hrows : ∀ row ∈ rs, IsRow row)
    (h : List.Forall₂ Shows (rs ++ [endMark ++ label ++ dashes]) ps) (front : List Bytes) :
    readBody label (.plain front) ps
      = .ofTexts label [] ((rs.map (· ++ [newline])).reverse ++ front).reverse.flatten [] := by
  induction rs generalizing ps front with
  | nil =>
    obtain ⟨piece, more, hpiece, hmore, rfl⟩ := List.forall₂_cons_left_iff.mp h
    obtain rfl := List.forall₂_nil_left_iff.mp hmore
    rw [readBody, show Line.ofPiece piece = _ from hpiece, step_endMark hlabel]
    rfl
  | cons row rs ih =>
    obtain ⟨hrow, hrest⟩ := List.forall_mem_cons.mp hrows
    obtain ⟨piece, more, hpiece, hmore, rfl⟩ := List.forall₂_cons_left_iff.mp h
    rw [readBody, show Line.ofPiece piece = _ from hpiece, hrow.step_eq label front]
    dsimp only
    rw [ih hrest hmore, List.map_cons, List.reverse_cons, List.append_assoc, List.singleton_append]

/-- A block in the common form, with lines of any width that fits and any line ends, is
one block. -/
theorem opensBlock_of_linesThen {label contents s rest : Bytes} {width : Nat}
    (hlabel : IsLabel label) (hwidth : 0 < width) (hlimit : width ≤ 250) (hcontents : contents ≠ [])
    (h : LinesThen (blockLines label width contents) s rest) :
    ∃ ps, pieces s = ps ++ pieces rest ∧ OpensBlock label ⟨label, [], contents⟩ ps := by
  obtain ⟨hflatten, hspec⟩ := rows_spec hwidth (Base64.encode contents)
  have hrows : ∀ row ∈ rows width (Base64.encode contents), IsRow row := fun row hrow =>
    ⟨(hspec row hrow).1, fun b hb => Base64.isMark_of_mem_encode ((hspec row hrow).2.2 b hb)⟩
  have hwhole : ∀ line ∈ blockLines label width contents, IsWhole line := by
    intro line hline
    rw [blockLines, List.cons_append, List.mem_cons, List.mem_append, List.mem_singleton] at hline
    rcases hline with rfl | hrow | rfl
    · exact isWhole_mark hlabel (by decide) (by decide)
    · exact (hrows line hrow).isWhole (Nat.le_trans (hspec line hrow).2.1 hlimit)
    · exact isWhole_mark hlabel (by decide) (by decide)
  obtain ⟨ps, hps, hshows⟩ := exists_pieces_of_linesThen h hwhole
  refine ⟨ps, hps, ?_⟩
  rw [blockLines, List.cons_append] at hshows
  obtain ⟨first, more, hfirst, hmore, rfl⟩ := List.forall₂_cons_left_iff.mp hshows
  have hopens : labelOf? (Line.ofPiece first).text = some label := by
    rw [show Line.ofPiece first = _ from hfirst]
    exact labelOf?_mark hlabel
  refine .intro hopens ?_
  -- the lines of the text are the rows, and its marks the encoding
  have hdecode : Base64.decode? ((rows width (Base64.encode contents)).map (· ++ [newline])).flatten
      = some contents := by
    refine Base64.decode?_of_filter ?_ ?_
    · rw [List.filter_flatten, List.map_map]
      have hfilter : ∀ row ∈ rows width (Base64.encode contents),
          ((fun row : Bytes => row.filter fun b => !Base64.isBlank b) ∘ (· ++ [newline])) row
            = row := by
        intro row hrow
        show (row ++ [newline]).filter _ = row
        rw [List.filter_append, List.filter_eq_self.mpr fun b hb =>
          ((hrows row hrow).marks b hb).not_isBlank]
        exact List.append_nil row
      rw [List.map_congr_left hfilter, List.map_id', hflatten]
    · intro hmem
      obtain ⟨line, hline, hhyphen⟩ := List.mem_flatten.mp hmem
      obtain ⟨row, hrow, rfl⟩ := List.mem_map.mp hline
      rcases List.mem_append.mp hhyphen with hmark | hlast
      · exact absurd rfl (((hrows row hrow).marks _ hmark).of_forall
          (p := fun b => b ≠ Base64.hyphen) (by decide) (by decide))
      · exact absurd hlast (by decide)
  have hbody := readBody_of_shows hlabel hrows hmore []
  rw [List.append_nil, List.reverse_reverse] at hbody
  obtain ⟨b, more, rfl⟩ := List.exists_cons_of_ne_nil hcontents
  rw [show Body.initial = .plain [] from rfl, hbody]
  unfold Outcome.ofTexts
  rw [hdecode]

end Keystore.Armor
