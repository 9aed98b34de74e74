import Keystore.Der

/-!
# Reading elements

An element can be read by two sets of rules. By the basic ones (BER) a tag and a
length may take more bytes than they need, and a constructed element may leave
its length open and mark its end instead. By the distinguished ones (DER) there
is one form only, which is what `Der` writes.

An `Element` keeps its content and also all of its bytes, since there are values
that are passed on exactly as they came.
-/

namespace Keystore.Der

/-- The rules to read by. -/
inductive Rules where
  | basic
  | distinguished
deriving DecidableEq, Repr

/-! ## Heads -/

/-- What stands in front of an element's content. -/
structure Head where
  tag : Tag
  constructed : Bool
  /-- The length of the content; `none` if it is left open. -/
  length : Option Nat
  /-- The number of bytes that the head takes up. -/
  size : Nat
deriving DecidableEq

/-- The space that the two high bits of a byte stand for. -/
def Space.ofByte (b : UInt8) : Space :=
  if b < 0x40 then universal
  else if b < 0x80 then application
  else if b < 0xC0 then context
  else reserved

/-- The bound on the digits of a tag's number in front of the last one. -/
abbrev longTagLimit : Nat := 0x1000000

/-- Reads the rest of a number to the base 128 of which `n` has been read: the
number, how many digits were read, and what follows. -/
def readArc? (n : Nat) : Bytes → Option (Nat × Nat × Bytes)
  | [] => none
  | b :: rest =>
    if b < 0x80 then some (n * 128 + b.toNat, 1, rest)
    else
      let next := n * 128 + (b.toNat - 0x80)
      if next < longTagLimit then (readArc? next rest).map fun p => (p.1, p.2.1 + 1, p.2.2)
      else none

/-- Reads a tag: it, whether the element is constructed, its size, what follows. -/
def readTag? (rules : Rules) : Bytes → Option (Tag × Bool × Nat × Bytes)
  | [] => none
  | b :: rest =>
    let space := Space.ofByte b
    let isConstructed := b.toNat % 64 / 32 == 1
    let number := b.toNat % 32
    if number < longTag then some (⟨space, number⟩, isConstructed, 1, rest)
    else match readArc? 0 rest with
      | none => none
      | some (n, k, s) =>
        if rules = .distinguished ∧ (n < longTag ∨ rest.head? = some 0x80) then none
        else some (⟨space, n⟩, isConstructed, k + 1, s)

/-- Reads a length, `none` inside if it is left open: it, its size, what follows.
By the basic rules a length with a count of its digits cannot be the last thing
there is. -/
def readLength? (rules : Rules) : Bytes → Option (Option Nat × Nat × Bytes)
  | [] => none
  | b :: rest =>
    let count := b.toNat - 0x80
    let field := rest.take count
    let found := some (some (BigEndian.number field), count + 1, rest.drop count)
    if b < 0x80 then some (some b.toNat, 1, rest)
    else match rules with
      | .basic =>
        if count = 0 then some (none, 1, rest)
        else if (rest.take (count + 1)).length = count + 1 then found else none
      | .distinguished =>
        if field.length = count ∧ field.head? ≠ some 0 ∧ 0x80 ≤ BigEndian.number field then
          found
        else none

/-- Reads a head. Only a constructed element can leave its length open. -/
def readHead? (rules : Rules) (s : Bytes) : Option (Head × Bytes) :=
  match readTag? rules s with
  | none => none
  | some (tag, isConstructed, tagSize, rest) =>
    match readLength? rules rest with
    | none => none
    | some (length, lengthSize, body) =>
      if length.isSome || isConstructed then
        some (⟨tag, isConstructed, length, tagSize + lengthSize⟩, body)
      else none

/-- The end mark of an element whose length is left open. -/
def endMark : Bytes := [0, 0]

theorem length_readArc? {n v k : Nat} {s rest : Bytes}
    (h : readArc? n s = some (v, k, rest)) : rest.length < s.length := by
  induction s generalizing n v k with
  | nil => simp [readArc?] at h
  | cons b s ih =>
    simp only [readArc?] at h
    split at h
    · simp only [Option.some.injEq, Prod.mk.injEq] at h
      simp [← h.2.2]
    · split at h
      · simp only [Option.map_eq_some_iff, Prod.mk.injEq] at h
        obtain ⟨⟨v', k', s'⟩, hr, -, -, rfl⟩ := h
        exact Nat.lt_succ_of_lt (ih hr)
      · simp at h

theorem length_readTag? {rules : Rules} {s rest : Bytes} {t : Tag} {c : Bool} {k : Nat}
    (h : readTag? rules s = some (t, c, k, rest)) : rest.length < s.length := by
  cases s with
  | nil => simp [readTag?] at h
  | cons b s =>
    simp only [readTag?] at h
    split at h
    · simp only [Option.some.injEq, Prod.mk.injEq] at h
      simp [← h.2.2.2]
    · split at h
      · simp at h
      next n k' s' harc =>
        split at h
        · simp at h
        · simp only [Option.some.injEq, Prod.mk.injEq] at h
          have := length_readArc? harc
          simp only [← h.2.2.2, List.length_cons]
          omega

theorem length_readLength? {rules : Rules} {s rest : Bytes} {n : Option Nat} {k : Nat}
    (h : readLength? rules s = some (n, k, rest)) : rest.length < s.length := by
  cases s with
  | nil => simp [readLength?] at h
  | cons b s =>
    simp only [readLength?] at h
    have drop_lt : ∀ m, (s.drop m).length < (b :: s).length := fun m => by
      simp only [List.length_drop, List.length_cons]
      omega
    split at h
    · simp only [Option.some.injEq, Prod.mk.injEq] at h
      simp [← h.2.2]
    · split at h
      · split at h
        · simp only [Option.some.injEq, Prod.mk.injEq] at h
          simp [← h.2.2]
        · split at h
          · simp only [Option.some.injEq, Prod.mk.injEq] at h
            exact h.2.2 ▸ drop_lt _
          · simp at h
      · split at h
        · simp only [Option.some.injEq, Prod.mk.injEq] at h
          exact h.2.2 ▸ drop_lt _
        · simp at h

/-- A head takes up bytes. -/
theorem length_readHead? {rules : Rules} {s body : Bytes} {e : Head}
    (h : readHead? rules s = some (e, body)) : body.length < s.length := by
  simp only [readHead?] at h
  split at h
  · simp at h
  next htag =>
    split at h
    · simp at h
    next hlen =>
      split at h
      · simp only [Option.some.injEq, Prod.mk.injEq] at h
        have h1 := length_readTag? htag
        have h2 := length_readLength? hlen
        rw [← h.2]
        omega
      · simp at h

/-! ## Elements -/

/-- One element as it was read. -/
structure Element where
  tag : Tag
  constructed : Bool
  content : Bytes
  /-- All bytes of the element, head and content. -/
  raw : Bytes
deriving DecidableEq

/-- The number of bytes up to the end mark that closes an open element; `depth` is
the number of elements that have been opened inside it. -/
def openLength? (depth : Nat) (s : Bytes) : Option Nat :=
  match _mark : Bytes.afterPrefix? endMark s with
  | some rest =>
    if depth = 0 then some 0 else (openLength? (depth - 1) rest).map (endMark.length + ·)
  | none =>
    match _h : readHead? .basic s with
    | none => none
    | some (e, body) =>
      match e.length with
      | none => (openLength? (depth + 1) body).map (e.size + ·)
      | some n =>
        if (body.take n).length = n then
          (openLength? depth (body.drop n)).map (e.size + n + ·)
        else none
termination_by s.length
decreasing_by
  · have := congrArg List.length (Bytes.eq_append_of_afterPrefix? _mark)
    simp only [endMark, List.length_append, List.length_cons, List.length_nil] at this
    omega
  · exact length_readHead? _h
  · have := length_readHead? _h
    simp only [List.length_drop]
    omega

/-- The element with a given head, taken off `s`, which `body` is the rest of. -/
def take? (s : Bytes) (e : Head) (body : Bytes) : Option (Element × Bytes) :=
  match e.length with
  | some n =>
    let content := body.take n
    if content.length = n then
      some (⟨e.tag, e.constructed, content, s.take (e.size + n)⟩, body.drop n)
    else none
  | none => (openLength? 0 body).map fun n =>
    (⟨e.tag, e.constructed, body.take n, s.take (e.size + n + endMark.length)⟩,
      body.drop (n + endMark.length))

/-- Reads one element from the front. An end mark is none. -/
def read? (rules : Rules) (s : Bytes) : Option (Element × Bytes) :=
  if Bytes.startsWith s endMark then none
  else (readHead? rules s).bind fun (e, body) => take? s e body

/-- An element takes up bytes, so a row of elements can be read by recursion on
what is left. -/
theorem length_read? {rules : Rules} {s rest : Bytes} {e : Element}
    (h : read? rules s = some (e, rest)) : rest.length < s.length := by
  simp only [read?] at h
  split at h
  · simp at h
  · simp only [Option.bind_eq_some_iff] at h
    obtain ⟨⟨e', body⟩, hhead, htake⟩ := h
    have hlt := length_readHead? hhead
    have hle : rest.length ≤ body.length := by
      simp only [take?] at htake
      split at htake
      · split at htake
        · simp only [Option.some.injEq, Prod.mk.injEq] at htake
          simp [← htake.2]
        · simp at htake
      · simp only [Option.map_eq_some_iff, Prod.mk.injEq] at htake
        obtain ⟨n, -, -, rfl⟩ := htake
        simp
    omega

/-- Reads a row of elements that fills all of `s`. -/
def readAll? (rules : Rules) (s : Bytes) : Option (List Element) :=
  if s = [] then some []
  else match _h : read? rules s with
    | none => none
    | some (e, rest) => (readAll? rules rest).map (e :: ·)
termination_by s.length
decreasing_by exact length_read? _h

/-- Reads one element that fills all of `s`. -/
def readOne? (rules : Rules) (s : Bytes) : Option Element :=
  match read? rules s with
  | some (e, []) => some e
  | _ => none

end Keystore.Der
