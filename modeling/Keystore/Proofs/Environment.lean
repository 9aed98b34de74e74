import Keystore.Environment
import Keystore.Proofs.Arguments

/-!
# What a variable holds, and what it switches on

The value of a variable stands in its first line (`Holds`). Setting a variable changes what it
holds and nothing else (`get_set`), also where the environment has several lines for one name, as
no rule forbids.

A value switches something on if it spells one of four words, in letters of either case and
between any blanks (`IsOn`). The words against it need no rule of their own where off is the
default (`switch_eq_true`).
-/

namespace Keystore

open Bytes (ascii)

namespace Environment

variable {env : Environment} {name other line value value' : Bytes}

/-! ## Values -/

/-- What a variable holds: what follows its name and `=` in the first line that begins so, or
nothing if no line does. -/
inductive Holds (env : Environment) (name : Bytes) : Bytes → Prop
  | line (front : List Bytes) (value : Bytes) (back : List Bytes)
    (hlines : env.lines = front ++ (name ++ [0x3D] ++ value) :: back)
    (hfirst : ∀ line ∈ front, ¬ name ++ [0x3D] <+: line) : Holds env name value
  | unset (hnone : ∀ line ∈ env.lines, ¬ name ++ [0x3D] <+: line) : Holds env name []

/-- What can be the name of a variable. -/
structure IsName (name : Bytes) : Prop where
  ne_nil : name ≠ []
  equals : 0x3D ∉ name
  nul : 0 ∉ name

theorem IsName.untilNul_eq (h : IsName name) : name.untilNul = name := by
  unfold Bytes.untilNul
  rw [List.takeWhile_eq_self_iff]
  intro b hb
  rw [bne_iff_ne]
  rintro rfl
  exact h.nul hb

theorem valueIn?_eq_some_iff :
    valueIn? name line = some value ↔ line = name ++ [0x3D] ++ value := by
  constructor
  · exact Bytes.eq_append_of_afterPrefix?
  · rintro rfl
    exact Bytes.afterPrefix?_append _ _

theorem valueIn?_eq_none_iff : valueIn? name line = none ↔ ¬ name ++ [0x3D] <+: line := by
  rw [Option.eq_none_iff_forall_ne_some]
  constructor
  · rintro h ⟨value, hline⟩
    exact h value (valueIn?_eq_some_iff.mpr hline.symm)
  · intro h value hvalue
    exact h ⟨value, (valueIn?_eq_some_iff.mp hvalue).symm⟩

/-- The first line of a variable says what is read. -/
theorem holds_get (hname : IsName name) : env.Holds name (env.get name) := by
  unfold get
  dsimp only
  rw [hname.untilNul_eq, if_neg hname.ne_nil]
  rcases hfound : env.lines.findSome? (valueIn? name) with _ | value
  · refine .unset fun line hline => ?_
    exact valueIn?_eq_none_iff.mp (List.findSome?_eq_none_iff.mp hfound line hline)
  · obtain ⟨front, line, back, hlines, hvalue, hfirst⟩ := List.findSome?_eq_some_iff.mp hfound
    rw [valueIn?_eq_some_iff.mp hvalue] at hlines
    exact .line front value back hlines
      fun line hline => valueIn?_eq_none_iff.mp (hfirst line hline)

/-- A variable holds one value. -/
theorem Holds.get_eq (hname : IsName name) (h : env.Holds name value) : env.get name = value := by
  unfold get
  dsimp only
  rw [hname.untilNul_eq, if_neg hname.ne_nil]
  cases h with
  | line front value back hlines hfirst =>
    have hfound : env.lines.findSome? (valueIn? name) = some value :=
      List.findSome?_eq_some_iff.mpr ⟨front, _, back, hlines, valueIn?_eq_some_iff.mpr rfl,
        fun line hline => valueIn?_eq_none_iff.mpr (hfirst line hline)⟩
    rw [hfound]
    rfl
  | unset hnone =>
    have hfound : env.lines.findSome? (valueIn? name) = none :=
      List.findSome?_eq_none_iff.mpr fun line hline => valueIn?_eq_none_iff.mpr (hnone line hline)
    rw [hfound]
    rfl

/-! ## Setting a variable -/

/-- A line is about one variable. -/
theorem eq_of_valueIn? (hname : equals ∉ name) (hother : equals ∉ other)
    (h : valueIn? name line = some value) (h' : valueIn? other line = some value') :
    name = other := by
  have hline := Bytes.eq_append_of_afterPrefix? h
  rw [Bytes.eq_append_of_afterPrefix? h', List.append_assoc, List.append_assoc,
    List.singleton_append, List.singleton_append] at hline
  have hsplit := Bytes.splitAtMark_append value' hother
  rw [hline, Bytes.splitAtMark_append value hname] at hsplit
  exact (Prod.mk.inj hsplit).1

/-- A line of one variable is not about another one. -/
theorem valueIn?_eq_none_of_ne (hname : equals ∉ name) (hother : equals ∉ other)
    (hne : name ≠ other) (h : (valueIn? other line).isSome) : valueIn? name line = none := by
  obtain ⟨value', hvalue'⟩ := Option.isSome_iff_exists.mp h
  rcases hvalue : valueIn? name line with _ | value
  · rfl
  · exact absurd (eq_of_valueIn? hname hother hvalue hvalue') hne

/-- Lines that are not about a variable may be left out. -/
theorem findSome?_filter {keeps : Bytes → Bool} (lines : List Bytes)
    (h : ∀ line, keeps line = false → valueIn? name line = none) :
    (lines.filter keeps).findSome? (valueIn? name) = lines.findSome? (valueIn? name) := by
  rw [← List.head?_filterMap, ← List.head?_filterMap, List.filterMap_filter]
  congr 2
  funext line
  split
  next => rfl
  next hleft => exact (h line (Bool.eq_false_iff.mpr hleft)).symm

/-- The line that is put for a variable is its first one. -/
theorem findSome?_put_self (lines : List Bytes) :
    (put name (name ++ equals :: value) lines).findSome? (valueIn? name) = some value := by
  have hline : valueIn? name (name ++ equals :: value) = some value := by
    rw [valueIn?_eq_some_iff, List.append_assoc, List.singleton_append]
  induction lines with
  | nil => rw [put, List.findSome?_cons, hline]
  | cons l ls ih =>
    rw [put]
    split
    next => rw [List.findSome?_cons, hline]
    next hl =>
      rw [List.findSome?_cons, Option.not_isSome_iff_eq_none.mp hl]
      exact ih

/-- A line that is put for one variable is not about another one, nor is one that it replaces. -/
theorem findSome?_put_of_ne (hname : equals ∉ name) (hother : equals ∉ other) (hne : name ≠ other)
    (lines : List Bytes) : (put other (other ++ equals :: value) lines).findSome? (valueIn? name)
      = lines.findSome? (valueIn? name) := by
  have hline : valueIn? name (other ++ equals :: value) = none := by
    refine valueIn?_eq_none_of_ne hname hother hne (Option.isSome_iff_exists.mpr ⟨value, ?_⟩)
    rw [valueIn?_eq_some_iff, List.append_assoc, List.singleton_append]
  induction lines with
  | nil => rw [put, List.findSome?_cons, hline]
  | cons l ls ih =>
    rw [put]
    split
    next hl =>
      rw [List.findSome?_cons, List.findSome?_cons, hline,
        valueIn?_eq_none_of_ne hname hother hne hl]
    next => rw [List.findSome?_cons, List.findSome?_cons, ih]

/-- A variable that is set has the new value, none if it is removed, and every other one has
the value that it had. Names and values end in front of a zero byte. -/
theorem get_set (hname : IsName name) (called : Bytes) (new : Option Bytes) :
    (env.set called new).get name = if called.takeWhile (· ≠ 0) = name
      then (new.getD []).takeWhile (· ≠ 0) else env.get name := by
  have hread : ∀ e : Environment, e.get name = (e.lines.findSome? (valueIn? name)).getD [] := by
    intro e
    unfold get
    dsimp only
    rw [hname.untilNul_eq, if_neg hname.ne_nil]
  have hcut : ∀ s : Bytes, s.takeWhile (· ≠ 0) = s.untilNul := by
    intro s
    unfold Bytes.untilNul
    congr 1
    funext b
    exact decide_not
  rw [hcut, hcut, hread, hread]
  unfold set
  dsimp only
  split_ifs with hbad hsame hsame
  · exact absurd hbad (hsame ▸ not_or.mpr ⟨hname.ne_nil, hname.equals⟩)
  · rfl
  · rw [hsame]
    cases new with
    | none =>
      dsimp only
      rw [List.findSome?_eq_none_iff.mpr]
      · rfl
      · intro line hline
        exact Option.isNone_iff_eq_none.mp (List.mem_filter.mp hline).2
    | some value => exact congrArg (·.getD []) (findSome?_put_self env.lines)
  · obtain ⟨-, hother⟩ := not_or.mp hbad
    cases new with
    | none =>
      refine congrArg (·.getD []) (findSome?_filter env.lines fun line hline => ?_)
      refine valueIn?_eq_none_of_ne hname.equals hother (Ne.symm hsame) ?_
      exact Option.isNone_eq_false_iff.mp hline
    | some value =>
      have hkept : (put called.untilNul (called.untilNul ++ equals :: value.untilNul)
          env.lines).findSome? (valueIn? name) = env.lines.findSome? (valueIn? name) :=
        findSome?_put_of_ne hname.equals hother (Ne.symm hsame) env.lines
      exact congrArg (·.getD []) hkept

/-! ## Switches -/

/-- A space, or one of the five bytes from the tab to the carriage return. -/
def IsBlank (b : UInt8) : Prop := b = 0x20 ∨ 0x09 ≤ b ∧ b ≤ 0x0D

/-- A byte spells a letter in lower case or its counterpart in upper case; other characters
spell themselves. -/
def Spells (b letter : UInt8) : Prop :=
  (0x41 ≤ b ∧ b ≤ 0x5A) ∧ letter = b + 0x20 ∨ ¬ (0x41 ≤ b ∧ b ≤ 0x5A) ∧ letter = b

/-- A value that switches something on. -/
inductive IsOn : Bytes → Prop
  | spelled (front spelling back letters : Bytes) (hfront : ∀ b ∈ front, IsBlank b)
    (hspelling : List.Forall₂ Spells spelling letters)
    (hletters : letters ∈ ["1", "true", "yes", "on"].map ascii) (hback : ∀ b ∈ back, IsBlank b) :
    IsOn (front ++ spelling ++ back)

theorem isBlank_iff {b : UInt8} : IsBlank b ↔ Bytes.isSpace b = true := by
  simp [IsBlank, Bytes.isSpace]

theorem spells_iff {b letter : UInt8} : Spells b letter ↔ letter = Bytes.lower b := by
  unfold Spells Bytes.lower
  split
  next h => simp only [h, not_true_eq_false, false_and, or_false, true_and, and_self]
  next h => simp only [h, not_false_eq_true, false_and, false_or, true_and]

theorem forall₂_spells_iff {spelling letters : Bytes} :
    List.Forall₂ Spells spelling letters ↔ letters = spelling.map Bytes.lower := by
  have hspells : Spells = fun b letter => Bytes.lower b = letter := by
    funext b letter
    exact propext (spells_iff.trans eq_comm)
  rw [hspells, ← List.forall₂_map_left_iff, List.forall₂_eq_eq_eq, eq_comm]

/-- What spells a word has no blanks in it. -/
theorem isSpace_of_mem_spelling {spelling : Bytes} (h : spelling.map Bytes.lower ∈ onWords)
    {b : UInt8} (hb : b ∈ spelling) : Bytes.isSpace b = false := by
  have hwords : (onWords.all fun w => w.all fun c => !Bytes.isSpace c) = true := rfl
  have hlower := List.all_eq_true.mp (List.all_eq_true.mp hwords _ h) (Bytes.lower b)
    (List.mem_map_of_mem hb)
  rw [Bool.not_eq_true'] at hlower
  rw [← Bool.not_eq_true, ← isBlank_iff] at hlower ⊢
  intro hblank
  have hsame : Bytes.lower b = b := by
    refine if_neg fun hupper => ?_
    simp only [IsBlank, UInt8.le_iff_toNat_le, ← UInt8.toNat_inj, UInt8.reduceToNat]
      at hblank hupper
    omega
  rw [hsame] at hlower
  exact hlower hblank

/-- A text between blanks is what is left without them. -/
theorem word_append {front spelling back : Bytes} (hfront : ∀ b ∈ front, Bytes.isSpace b = true)
    (hspelling : ∀ b ∈ spelling, Bytes.isSpace b = false)
    (hback : ∀ b ∈ back, Bytes.isSpace b = true) :
    word (front ++ spelling ++ back) = spelling.map Bytes.lower := by
  unfold word
  rw [List.append_assoc, List.dropWhile_append_of_pos hfront]
  cases spelling with
  | nil =>
    rw [List.nil_append, List.dropWhile_eq_nil_iff.mpr hback]
    rfl
  | cons b bs =>
    have hb : ¬ Bytes.isSpace b = true := Bool.eq_false_iff.mp (hspelling b List.mem_cons_self)
    rw [List.cons_append, List.dropWhile_cons_of_neg hb, ← List.cons_append,
      Bytes.dropEndWhile_append hspelling hback]

/-- A text has blanks at its ends, and between them what is left without these. -/
theorem exists_eq_append_word (s : Bytes) : ∃ front spelling back, s = front ++ spelling ++ back
    ∧ (∀ b ∈ front, Bytes.isSpace b = true) ∧ (∀ b ∈ back, Bytes.isSpace b = true)
    ∧ word s = spelling.map Bytes.lower := by
  obtain ⟨back, hrest, hback⟩ :=
    Bytes.exists_eq_dropEndWhile_append Bytes.isSpace (s.dropWhile Bytes.isSpace)
  refine ⟨s.takeWhile Bytes.isSpace, _, back, ?_, fun b hb => List.mem_takeWhile_imp hb, hback, rfl⟩
  rw [List.append_assoc, ← hrest, List.takeWhile_append_dropWhile]

/-- A variable that is off by default is on where its value says so. -/
theorem switch_eq_true : env.switch name false = true ↔ IsOn (env.get name) := by
  have hswitch : env.switch name false = true ↔ word (env.get name) ∈ onWords := by
    unfold switch
    dsimp only
    split_ifs with hon
    · exact iff_of_true rfl hon
    · exact iff_of_false id hon
    · exact iff_of_false id hon
  rw [hswitch]
  constructor
  · intro hon
    obtain ⟨front, spelling, back, hvalue, hfront, hback, hword⟩ :=
      exists_eq_append_word (env.get name)
    rw [hvalue]
    exact .spelled front spelling back _ (fun b hb => isBlank_iff.mpr (hfront b hb))
      (forall₂_spells_iff.mpr hword) hon fun b hb => isBlank_iff.mpr (hback b hb)
  · generalize env.get name = value
    rintro ⟨front, spelling, back, letters, hfront, hspelling, hletters, hback⟩
    have hmap := forall₂_spells_iff.mp hspelling
    rw [hmap] at hletters
    rw [word_append (fun b hb => isBlank_iff.mp (hfront b hb))
      (fun b hb => isSpace_of_mem_spelling hletters hb) fun b hb => isBlank_iff.mp (hback b hb)]
    exact hletters

end Environment

end Keystore
