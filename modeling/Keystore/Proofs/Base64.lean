import Keystore.Armor
import Mathlib.Data.List.TakeWhile

/-!
# Reading Base64 back

Three bytes are four values below 64, and `sextets` gives the values of a whole text. An encoding is
their symbols, filled up with pad characters to a multiple of four (`encode_eq`), and joining
the values gives the bytes back (`join_sextets`). So a text is decoded to what was encoded, however
it is broken into lines: blanks between the symbols do not matter (`decode?_of_filter`).
-/

namespace Keystore.Base64

/-! ## Symbols -/

/-- What the reader looks for in a symbol. -/
theorem symbol_cases : ∀ n < 64, value? (symbol n) = some n ∧ symbol n ≠ pad := by
  decide

/-- A byte of an encoding: a symbol or a pad character. -/
def IsMark (b : UInt8) : Prop := (∃ n < 64, b = symbol n) ∨ b = pad

/-- Whatever holds for all symbols and for the pad character holds for the bytes of encodings. -/
theorem IsMark.of_forall {p : UInt8 → Prop} (hsymbol : ∀ n < 64, p (symbol n)) (hpad : p pad)
    {b : UInt8} (h : IsMark b) : p b := by
  rcases h with ⟨n, hn, rfl⟩ | rfl
  · exact hsymbol n hn
  · exact hpad

theorem IsMark.not_isBlank {b : UInt8} (h : IsMark b) : (!isBlank b) = true :=
  h.of_forall (p := fun b => (!isBlank b) = true) (by decide) (by decide)

/-! ## Values -/

/-- The values of the symbols that an encoding is made of. -/
def sextets : Bytes → List Nat
  | [] => []
  | [a] => [a.toNat / 4, a.toNat % 4 * 16]
  | [a, b] => [a.toNat / 4, a.toNat % 4 * 16 + b.toNat / 16, b.toNat % 16 * 4]
  | a :: b :: c :: rest =>
    a.toNat / 4 :: (a.toNat % 4 * 16 + b.toNat / 16) :: (b.toNat % 16 * 4 + c.toNat / 64)
      :: c.toNat % 64 :: sextets rest

/-- The number of pad characters for `n` bytes. -/
def padding (n : Nat) : Nat := (3 - n % 3) % 3

theorem padding_add_three (n : Nat) : padding (n + 3) = padding n := by
  rw [padding, padding, Nat.add_mod_right]

theorem encode_eq (s : Bytes) :
    encode s = (sextets s).map symbol ++ List.replicate (padding s.length) pad := by
  fun_induction encode s with
  | case1 => rfl
  | case2 a => rfl
  | case3 a b => rfl
  | case4 a b c rest ih =>
    rw [ih, List.length_cons, List.length_cons, List.length_cons, padding_add_three]
    rfl

theorem lt_of_mem_sextets {s : Bytes} {n : Nat} (h : n ∈ sextets s) : n < 64 := by
  fun_induction sextets s with
  | case1 => exact nomatch h
  | case2 a =>
    have := a.toNat_lt
    simp only [List.mem_cons, List.not_mem_nil, or_false] at h
    omega
  | case3 a b =>
    have := a.toNat_lt
    have := b.toNat_lt
    simp only [List.mem_cons, List.not_mem_nil, or_false] at h
    omega
  | case4 a b c rest ih =>
    have := a.toNat_lt
    have := b.toNat_lt
    have := c.toNat_lt
    simp only [List.mem_cons] at h
    rcases h with h | h | h | h | h
    · omega
    · omega
    · omega
    · omega
    · exact ih h

/-- With the padding the number of symbols is a multiple of four. -/
theorem length_sextets (s : Bytes) : ((sextets s).length + padding s.length) % 4 = 0 := by
  fun_induction sextets s with
  | case1 => rfl
  | case2 a =>
    simp only [List.length_cons, List.length_nil, padding, Nat.reduceMod, Nat.reduceAdd,
      Nat.reduceSub]
  | case3 a b =>
    simp only [List.length_cons, List.length_nil, padding, Nat.reduceMod, Nat.reduceAdd,
      Nat.reduceSub]
  | case4 a b c rest ih =>
    simp only [List.length_cons, padding_add_three]
    omega

/-- The values joined are the bytes. -/
theorem join_sextets (s : Bytes) : join (sextets s) = s := by
  have hbyte : ∀ (b : UInt8) (n : Nat), n % 256 = b.toNat → UInt8.ofNat n = b := by
    intro b n h
    apply UInt8.toNat_inj.mp
    rw [UInt8.toNat_ofNat', h]
  fun_induction sextets s with
  | case1 => rfl
  | case2 a =>
    have := a.toNat_lt
    rw [join, hbyte a _ (by omega)]
  | case3 a b =>
    have := a.toNat_lt
    have := b.toNat_lt
    rw [join, hbyte a _ (by omega), hbyte b _ (by omega)]
  | case4 a b c rest ih =>
    have := a.toNat_lt
    have := b.toNat_lt
    have := c.toNat_lt
    rw [join, hbyte a _ (by omega), hbyte b _ (by omega), hbyte c _ (by omega), ih]

/-! ## Encodings -/

theorem isMark_of_mem_encode {s : Bytes} {b : UInt8} (h : b ∈ encode s) : IsMark b := by
  rw [encode_eq, List.mem_append, List.mem_map] at h
  rcases h with ⟨n, hn, rfl⟩ | hpad
  · exact Or.inl ⟨n, lt_of_mem_sextets hn, rfl⟩
  · exact Or.inr (List.eq_of_mem_replicate hpad)

theorem mapM_value? {ns : List Nat} (h : ∀ n ∈ ns, n < 64) :
    (ns.map symbol).mapM value? = some ns := by
  induction ns with
  | nil => rfl
  | cons n ns ih =>
    obtain ⟨hn, hns⟩ := List.forall_mem_cons.mp h
    rw [List.map_cons, List.mapM_cons, (symbol_cases n hn).1, ih hns]
    rfl

/-- A text is decoded if it is an encoding apart from blanks. -/
theorem decode?_of_filter {text s : Bytes} (hmarks : (text.filter fun b => !isBlank b) = encode s)
    (hhyphen : hyphen ∉ text) : decode? text = some s := by
  have hall : (text.takeWhile (· != hyphen)) = text := by
    refine List.takeWhile_eq_self_iff.mpr fun b hb => ?_
    rw [bne_iff_ne]
    exact ne_of_mem_of_not_mem hb hhyphen
  have hsymbols : ∀ b ∈ (sextets s).map symbol, (b != pad) = true := by
    intro b hb
    obtain ⟨n, hn, rfl⟩ := List.mem_map.mp hb
    exact bne_iff_ne.mpr (symbol_cases n (lt_of_mem_sextets hn)).2
  have hfront : (encode s).takeWhile (· != pad) = (sextets s).map symbol := by
    rw [encode_eq, List.takeWhile_append_of_pos hsymbols]
    cases padding s.length with
    | zero => exact List.append_nil _
    | succ k => exact List.append_nil _
  have hback : (encode s).dropWhile (· != pad) = List.replicate (padding s.length) pad := by
    rw [encode_eq, List.dropWhile_append_of_pos hsymbols]
    cases padding s.length with
    | zero => rfl
    | succ k => rfl
  have hlength : (encode s).length % 4 = 0 := by
    rw [encode_eq, List.length_append, List.length_map, List.length_replicate]
    exact length_sextets s
  have hpadding : (List.replicate (padding s.length) pad).all (· == pad) = true := by
    rw [List.all_eq_true]
    intro b hb
    exact beq_iff_eq.mpr (List.eq_of_mem_replicate hb)
  have hcount : padding s.length ≤ 2 := by
    unfold padding
    omega
  unfold decode?
  dsimp only
  rw [hall, hmarks, hfront, hback, List.length_replicate, if_pos ⟨hpadding, hcount, hlength⟩,
    mapM_value? fun n hn => lt_of_mem_sextets hn, Option.map_some, join_sextets]

end Keystore.Base64
