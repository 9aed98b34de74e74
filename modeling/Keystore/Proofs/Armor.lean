import Keystore.Armor

/-!
# Where blocks begin

`Armor.outcomes` forgets where a block was found, and of a damaged one even the label. Here the
blocks of a file are listed with the labels of the lines that open them (`blocks`,
`outcomes_eq`). Not every such line opens a block: one that stands inside another block is a part
of that. But each block has a line of its own (`label_blocks_sublist`), so a file never has more
blocks than lines that could open one.
-/

namespace Keystore.Armor

/-- A block where it was found: the label of the line that opens it, and the outcome of reading
it. -/
structure Found where
  label : Bytes
  outcome : Outcome
deriving DecidableEq

/-- All blocks in a row of pieces, in order. -/
def blocks (ps : List Bytes) : List Found :=
  match _h : findBegin true ps with
  | none => []
  | some (label, rest) =>
    ⟨label, readBody label .initial rest⟩ :: blocks (readBody label .initial rest).rest
termination_by ps.length
decreasing_by exact Nat.lt_of_le_of_lt (length_rest_readBody ..) (length_findBegin _h)

theorem blocks_of_findBegin {ps rest : List Bytes} {label : Bytes}
    (h : findBegin true ps = some (label, rest)) :
    blocks ps
      = ⟨label, readBody label .initial rest⟩ :: blocks (readBody label .initial rest).rest := by
  rw [blocks]
  split
  next hnone => exact nomatch hnone.symm.trans h
  next label' rest' hsome =>
    obtain ⟨rfl, rfl⟩ := Prod.mk.inj (Option.some.inj (hsome.symm.trans h))
    rfl

theorem blocks_of_findBegin_none {ps : List Bytes} (h : findBegin true ps = none) :
    blocks ps = [] := by
  rw [blocks]
  split
  next => rfl
  next hsome => exact nomatch hsome.symm.trans h

/-- The outcomes are those of the blocks. -/
theorem outcomes_eq (ps : List Bytes) : outcomes ps = (blocks ps).map Found.outcome := by
  induction ps using outcomes.induct with
  | case1 ps hnone =>
    rw [outcomes]
    split
    next =>
      rw [blocks_of_findBegin_none (Option.map_eq_none_iff.mp hnone)]
      rfl
    next hsome => exact nomatch hsome.symm.trans hnone
  | case2 ps o hsome ih =>
    obtain ⟨⟨label, rest⟩, hbegin, rfl⟩ := Option.map_eq_some_iff.mp hsome
    rw [outcomes, blocks_of_findBegin hbegin]
    split
    next hnone => exact nomatch hnone.symm.trans hsome
    next o' hsome' =>
      obtain rfl := Option.some.inj (hsome.symm.trans hsome')
      rw [ih]
      rfl

theorem label_of_ofTexts {label header text : Bytes} {ps rest : List Bytes} {block : Block}
    (h : Outcome.ofTexts label header text ps = .block block rest) : block.label = label := by
  unfold Outcome.ofTexts at h
  rcases hcontents : Base64.decode? text with _ | _ | ⟨first, contents⟩
  · rw [hcontents] at h
    cases h
  · rw [hcontents] at h
    cases h
  · rw [hcontents] at h
    cases h
    rfl

/-- A block that was read has the label of the line that opens it. -/
theorem label_of_readBody {label : Bytes} {b : Body} {ps rest : List Bytes} {block : Block}
    (h : readBody label b ps = .block block rest) : block.label = label := by
  induction ps generalizing b with
  | nil => cases h
  | cons piece ps ih =>
    rw [readBody] at h
    cases hstep : b.step label (Line.ofPiece piece) with
    | more b' =>
      rw [hstep] at h
      exact ih h
    | complete header text =>
      rw [hstep] at h
      exact label_of_ofTexts h
    | damaged =>
      rw [hstep] at h
      cases h

theorem label_of_mem_blocks {ps rest : List Bytes} {f : Found} {block : Block}
    (hmem : f ∈ blocks ps) (h : f.outcome = .block block rest) : block.label = f.label := by
  induction ps using blocks.induct with
  | case1 ps hnone =>
    rw [blocks_of_findBegin_none hnone] at hmem
    exact nomatch hmem
  | case2 ps label rest hsome ih =>
    rw [blocks_of_findBegin hsome] at hmem
    rcases List.mem_cons.mp hmem with rfl | hlater
    · exact label_of_readBody h
    · exact ih hlater

/-! ## Lines that open a block -/

/-- The label of a line that opens a block, with a byte order mark in front or without. -/
def opening? (piece : Bytes) : Option Bytes := labelOf? (Line.ofPiece (dropMark piece)).text

/-- The labels of all lines that open a block, wherever they stand. -/
def openings (ps : List Bytes) : List Bytes := ps.filterMap opening?

theorem dropEndWhile_isPrefix (p : UInt8 → Bool) (s : Bytes) : Bytes.dropEndWhile p s <+: s := by
  obtain ⟨back, hs, -⟩ := Bytes.exists_eq_dropEndWhile_append p s
  exact ⟨back, hs.symm⟩

/-- A line that opens a block has no mark in front. -/
theorem dropMark_of_labelOf? {piece label : Bytes}
    (h : labelOf? (Line.ofPiece piece).text = some label) : dropMark piece = piece := by
  unfold dropMark
  split
  next b rest hmark =>
    obtain ⟨back, hback⟩ := dropEndWhile_isPrefix isTrailing piece
    unfold labelOf? at h
    split at h
    next => exact nomatch h
    next more hbegin =>
      -- a text cannot begin with both marks
      have hpiece := Bytes.eq_append_of_afterPrefix? hmark
      have htext := Bytes.eq_append_of_afterPrefix? hbegin
      rw [show Bytes.dropEndWhile isTrailing piece = _ from htext, hpiece] at hback
      exact absurd (List.cons.inj hback).1 (by decide)
  next => rfl

theorem openings_of_findBegin {first : Bool} {ps rest : List Bytes} {label : Bytes}
    (h : findBegin first ps = some (label, rest)) :
    (label :: openings rest).Sublist (openings ps) := by
  induction ps generalizing first with
  | nil => exact nomatch h
  | cons piece ps ih =>
    unfold findBegin at h
    dsimp only at h
    split at h
    next label' hlabel =>
      obtain ⟨rfl, rfl⟩ := Prod.mk.inj (Option.some.inj h)
      have hopens : opening? piece = some label' := by
        cases first with
        | true => exact hlabel
        | false =>
          have hplain : labelOf? (Line.ofPiece piece).text = some label' := hlabel
          unfold opening?
          rw [dropMark_of_labelOf? hplain]
          exact hplain
      have hfirst : openings (piece :: ps) = label' :: openings ps :=
        List.filterMap_cons_some hopens
      exact hfirst ▸ List.Sublist.refl _
    next =>
      refine (ih h).trans ?_
      exact (List.sublist_cons_self piece ps).filterMap _

theorem rest_readBody_suffix (label : Bytes) (b : Body) (ps : List Bytes) :
    (readBody label b ps).rest <:+ ps := by
  induction ps generalizing b with
  | nil => exact List.suffix_rfl
  | cons piece ps ih =>
    unfold readBody
    split
    next => exact (ih _).trans (List.suffix_cons piece ps)
    next header text =>
      unfold Outcome.ofTexts
      split
      · exact List.suffix_cons piece ps
      · exact List.suffix_cons piece ps
      · exact List.suffix_cons piece ps
    next => exact List.suffix_cons piece ps

/-- Each block is opened by a line of its own. -/
theorem label_blocks_sublist (ps : List Bytes) :
    ((blocks ps).map Found.label).Sublist (openings ps) := by
  induction ps using blocks.induct with
  | case1 ps hnone =>
    rw [blocks_of_findBegin_none hnone]
    exact List.nil_sublist _
  | case2 ps label rest hsome ih =>
    rw [blocks_of_findBegin hsome, List.map_cons]
    refine List.Sublist.trans ?_ (openings_of_findBegin hsome)
    refine List.Sublist.cons_cons label (ih.trans ?_)
    exact (rest_readBody_suffix label .initial rest).sublist.filterMap _

end Keystore.Armor
