import Keystore.Console

/-!
# Text without its colours

A colour begins with an escape sequence: an escape, a bracket, some digits and semicolons, and
the letter `m`. `Console.plain` deletes these from a text. It reads the text from the front, so what
follows two texts that are read alike is read alike too (`Screen.readAll_append`), and a text
that is printed in several pieces need not be taken apart again.

A text that may have been painted is plain text or the text in one of the colours (`Painted`).
Behind a blank, where no escape sequence can be open, both read alike (`readsAlike_painted`).
-/

namespace Keystore.Console

/-- The byte that an escape sequence begins with. -/
abbrev escape : UInt8 := 0x1B

/-- The second byte of an escape sequence. -/
abbrev bracket : UInt8 := 0x5B

/-- The last byte of an escape sequence for a colour. -/
abbrev colorEnd : UInt8 := 0x6D

/-- What stands between the bracket and the end of an escape sequence for a colour. -/
def isParameter (b : UInt8) : Bool := Bytes.isDigit b || b == 0x3B

/-- What a text shows as far as it was read. -/
structure Screen where
  shown : Bytes
  /-- What was read of an escape sequence that is not complete. -/
  pending : Bytes
deriving DecidableEq

namespace Screen

/-- Nothing was read. -/
def blank : Screen := ⟨[], []⟩

/-- The first byte behind what is shown. -/
def begin (shown : Bytes) (b : UInt8) : Screen :=
  if b = escape then ⟨shown, [b]⟩ else ⟨shown ++ [b], []⟩

/-- One more byte. What turns out to be no escape sequence is shown. -/
def push (s : Screen) (b : UInt8) : Screen :=
  match s.pending with
  | [] => begin s.shown b
  | [_] =>
    if b = bracket then ⟨s.shown, s.pending ++ [b]⟩ else begin (s.shown ++ s.pending) b
  | _ =>
    if b = colorEnd then ⟨s.shown, []⟩
    else if isParameter b then ⟨s.shown, s.pending ++ [b]⟩
    else begin (s.shown ++ s.pending) b

/-- The bytes of a text, in order. -/
def readAll (s : Screen) (text : Bytes) : Screen := text.foldl push s

theorem readAll_append (s : Screen) (a b : Bytes) : s.readAll (a ++ b) = (s.readAll a).readAll b :=
  List.foldl_append

theorem readAll_nil (s : Screen) : s.readAll [] = s := rfl

/-- Behind a blank no escape sequence is open. -/
theorem pending_readAll_blank (s : Screen) (front : Bytes) :
    (s.readAll (front ++ [0x20])).pending = [] := by
  rw [readAll_append]
  show ((s.readAll front).push 0x20).pending = []
  unfold push
  split
  · rfl
  · rfl
  · rfl

/-- A text without escapes is shown as it is. -/
theorem readAll_of_notMem {text : Bytes} (h : escape ∉ text) (shown : Bytes) :
    readAll ⟨shown, []⟩ text = ⟨shown ++ text, []⟩ := by
  induction text generalizing shown with
  | nil => rw [List.append_nil, readAll_nil]
  | cons b text ih =>
    obtain ⟨hb, htext⟩ := not_or.mp (mt List.mem_cons.mpr h)
    have hbegin : push ⟨shown, []⟩ b = ⟨shown ++ [b], []⟩ := if_neg (Ne.symm hb)
    show readAll (push ⟨shown, []⟩ b) text = _
    rw [hbegin, ih htext, List.append_assoc, List.singleton_append]

end Screen

/-- A text without the escape sequences of its colours. -/
def plain (text : Bytes) : Bytes :=
  let s := Screen.blank.readAll text
  s.shown ++ s.pending

/-! ## Painted texts -/

/-- The colours that texts are painted in. -/
def palette : List Bytes := [red, cyan, boldRed, boldGreen, boldYellow]

/-- A text that may have been painted. -/
inductive Painted (text : Bytes) : Bytes → Prop
  | bare : Painted text text
  | wrapped {color : Bytes} (h : color ∈ palette) : Painted text (wrap color text)

/-- The escape sequences themselves show nothing. -/
theorem readAll_color {color : Bytes} (h : color ∈ palette) (shown : Bytes) :
    Screen.readAll ⟨shown, []⟩ color.untilNul = ⟨shown, []⟩ := by
  simp only [palette, List.mem_cons, List.not_mem_nil, or_false] at h
  rcases h with rfl | rfl | rfl | rfl | rfl <;> rfl

theorem readAll_reset (shown : Bytes) : Screen.readAll ⟨shown, []⟩ reset = ⟨shown, []⟩ := rfl

/-- A painted text shows what the text shows, where no escape sequence is open. -/
theorem Painted.readAll {text x : Bytes} (h : Painted text x) (htext : escape ∉ text)
    (shown : Bytes) : Screen.readAll ⟨shown, []⟩ x = ⟨shown ++ text, []⟩ := by
  cases h with
  | bare => exact Screen.readAll_of_notMem htext shown
  | wrapped hcolor =>
    rw [wrap, Screen.readAll_append, Screen.readAll_append, readAll_color hcolor,
      Screen.readAll_of_notMem htext, readAll_reset]

example : plain (Bytes.ascii "a " ++ wrap boldGreen (Bytes.ascii "b")) = Bytes.ascii "a b" := rfl

/-- Two texts that read alike behind all others. -/
def ReadsAlike (x y : Bytes) : Prop := ∀ s : Screen, s.readAll x = s.readAll y

theorem ReadsAlike.refl (x : Bytes) : ReadsAlike x x := fun _ => rfl

theorem ReadsAlike.append {x y x' y' : Bytes} (h : ReadsAlike x y) (h' : ReadsAlike x' y') :
    ReadsAlike (x ++ x') (y ++ y') := by
  intro s
  rw [Screen.readAll_append, Screen.readAll_append, h s, h' _]

/-- Behind a blank a text reads alike in all colours. -/
theorem readsAlike_painted {text x y : Bytes} (hx : Painted text x) (hy : Painted text y)
    (htext : escape ∉ text) (front : Bytes) :
    ReadsAlike (front ++ [0x20] ++ x) (front ++ [0x20] ++ y) := by
  intro s
  rw [Screen.readAll_append s (front ++ [0x20]), Screen.readAll_append s (front ++ [0x20])]
  have hopen := Screen.pending_readAll_blank s front
  rcases hread : s.readAll (front ++ [0x20]) with ⟨shown, pending⟩
  rw [hread] at hopen
  obtain rfl : pending = [] := hopen
  rw [hx.readAll htext, hy.readAll htext]

end Keystore.Console
