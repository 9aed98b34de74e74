import Keystore.Proofs.KeyTampering

/-!
# The bytes of the key stream

The stream is defined by a number of digests that is known beforehand. Here it is compared with
the two ways in which it is usually described: digest by digest, as a chain in which each digest
is over the password and the one before it (`chain`), and round by round, as what is made by
adding digests as long as bytes are missing (`Making.Runs`).

* `Making.runs_start_iff` – the rounds end, after as many of them as there are twenties in the
  length, rounded up, and in one way only.
* `getElem?_uncover` – byte `i` of what is hidden is byte `i` of the key plus byte `i % 20` of
  digest `i / 20 + 1` of the chain.
* `hiddenPart_eq_of_chain` puts them together, with what follows about two keys under one
  password and salt: what is hidden grows with the key, and two of them differ by what the keys
  differ by.
-/

namespace Keystore.KeyProtector

variable {password salt plain plain' blob blob' : Bytes} {i k n : Nat}

/-- The chain behind a salt: each digest is over the password and the one before it. -/
def chain (password salt : Bytes) : Nat → Bytes
  | 0 => salt
  | k + 1 => Sha1.digest (message password (chain password salt k))

theorem length_chain_succ (password salt : Bytes) (k : Nat) :
    (chain password salt (k + 1)).length = Sha1.size := Sha1.length_digest _

/-- The chain goes on from any of its digests as from a salt. -/
theorem chain_chain_one (password salt : Bytes) (k : Nat) :
    chain password (chain password salt 1) k = chain password salt (k + 1) := by
  induction k with
  | zero => rfl
  | succ k ih =>
    show Sha1.digest (message password (chain password (chain password salt 1) k)) = _
    rw [ih]
    rfl

/-- The digests of the stream are those of the chain. -/
theorem digests_eq (password salt : Bytes) (n : Nat) :
    digests (Utf16.ofText password) n salt
      = (List.range n).map fun k => chain password salt (k + 1) := by
  induction n generalizing salt with
  | zero => rfl
  | succ n ih =>
    show chain password salt 1 :: digests (Utf16.ofText password) n (chain password salt 1) = _
    rw [ih, List.range_succ_eq_map, List.map_cons, List.map_map]
    exact congrArg _ (List.map_congr_left fun k _ => chain_chain_one password salt (k + 1))

/-! ## Round by round -/

/-- What the stream is made from: the last digest, and the bytes so far. -/
structure Making where
  seed : Bytes
  stream : Bytes

namespace Making

/-- Nothing is made yet, and the first digest will be over the salt. -/
def start (salt : Bytes) : Making := ⟨salt, []⟩

/-- One round: the next digest, put behind the bytes so far. -/
def round (password : Bytes) (s : Making) : Making where
  seed := Sha1.digest (message password s.seed)
  stream := s.stream ++ Sha1.digest (message password s.seed)

/-- Rounds are made as long as there are fewer than `n` bytes: from `s` these are `k` rounds, and
`t` is what they lead to. -/
inductive Runs (password : Bytes) (n : Nat) : Nat → Making → Making → Prop where
  | done {s : Making} (henough : n ≤ s.stream.length) : Runs password n 0 s s
  | next {k : Nat} {s t : Making} (hmissing : s.stream.length < n)
      (hrest : Runs password n k (s.round password) t) : Runs password n (k + 1) s t

/-- What stands after `k` rounds: a digest of the chain, and all of them up to it. -/
def after (password salt : Bytes) (k : Nat) : Making :=
  ⟨chain password salt k, (digests (Utf16.ofText password) k salt).flatten⟩

theorem length_after (password salt : Bytes) (k : Nat) :
    (after password salt k).stream.length = 20 * k :=
  (length_flatten_digests _ _ _).trans (Nat.mul_comm _ _)

/-- A round leads from each of these to the next. -/
theorem round_after (password salt : Bytes) (k : Nat) :
    (after password salt k).round password = after password salt (k + 1) := by
  unfold after round
  rw [digests_eq, digests_eq, List.range_succ, List.map_append, List.flatten_append,
    List.map_singleton, List.flatten_singleton]
  rfl

/-- The rounds from the start on: none is made too many, and none is missing. -/
theorem runs_after_iff {t : Making} :
    Runs password n k (after password salt i) t ↔
      n ≤ 20 * (i + k) ∧ (∀ j < k, 20 * (i + j) < n) ∧ t = after password salt (i + k) := by
  induction k generalizing i with
  | zero =>
    constructor
    · intro h
      cases h with
      | done henough =>
        rw [length_after] at henough
        exact ⟨henough, fun j hj => absurd hj (Nat.not_lt_zero j), rfl⟩
    · intro h
      obtain ⟨henough, -, rfl⟩ := h
      exact .done (by rwa [length_after])
  | succ k ih =>
    have hcount : i + (k + 1) = i + 1 + k := by omega
    rw [hcount]
    constructor
    · intro h
      cases h with
      | next hmissing hrest =>
        rw [length_after] at hmissing
        rw [round_after, ih] at hrest
        obtain ⟨henough, hmore, rfl⟩ := hrest
        refine ⟨henough, fun j hj => ?_, rfl⟩
        cases j with
        | zero => exact hmissing
        | succ j =>
          have hbefore := hmore j (Nat.lt_of_succ_lt_succ hj)
          omega
    · intro h
      obtain ⟨henough, hmore, rfl⟩ := h
      refine .next ?_ ?_
      · rw [length_after]
        exact hmore 0 (Nat.succ_pos k)
      · rw [round_after, ih]
        refine ⟨henough, fun j hj => ?_, rfl⟩
        have hbefore := hmore (j + 1) (Nat.succ_lt_succ hj)
        omega

/-- The rounds for `n` bytes are as many as there are twenties in `n`, rounded up. -/
theorem runs_start_iff {t : Making} :
    Runs password n k (start salt) t
      ↔ k = (n + 19) / 20 ∧ t = after password salt ((n + 19) / 20) := by
  have hceil : ∀ {c : Nat}, (n + 19) / 20 ≤ c ↔ n ≤ 20 * c := by
    intro c
    omega
  show Runs password n k (after password salt 0) t ↔ _
  rw [runs_after_iff]
  simp only [Nat.zero_add]
  constructor
  · intro h
    obtain ⟨henough, hmore, rfl⟩ := h
    have hk : k = (n + 19) / 20 := by
      refine Nat.le_antisymm (Nat.le_of_not_lt fun hless => ?_) (hceil.mpr henough)
      exact Nat.not_lt.mpr (hceil.mp (Nat.le_refl _)) (hmore _ hless)
    exact ⟨hk, by rw [← hk]⟩
  · intro h
    obtain ⟨rfl, rfl⟩ := h
    refine ⟨hceil.mp (Nat.le_refl _), fun j hj => ?_, rfl⟩
    exact Nat.lt_of_not_le fun hle => absurd (hceil.mpr hle) (Nat.not_le.mpr hj)

end Making

/-- The stream is what the rounds make, cut to the length. -/
theorem keystream_eq_take (password salt : Bytes) (n : Nat) :
    keystream (Utf16.ofText password) salt n
      = (Making.after password salt ((n + 19) / 20)).stream.take n := rfl

/-! ## Byte by byte -/

/-- Byte `i` of the stream: byte `i % 20` of digest `i / 20 + 1`. -/
def streamByte (password salt : Bytes) (i : Nat) : UInt8 :=
  (chain password salt (i / 20 + 1)).getD (i % 20) 0

/-- A digest has the byte that is looked for. -/
theorem getElem?_chain (password salt : Bytes) (i : Nat) :
    (chain password salt (i / 20 + 1))[i % 20]? = some (streamByte password salt i) := by
  have hlt : i % 20 < (chain password salt (i / 20 + 1)).length := by
    rw [length_chain_succ]
    exact Nat.mod_lt i (by decide)
  rw [streamByte, List.getD_eq_getElem?_getD, List.getElem?_eq_getElem hlt, Option.getD_some]

/-- A byte of blocks of one size is found by its block and its place in it. -/
theorem getElem?_flatten_of_length {m : Nat} (hm : 0 < m) {blocks : List Bytes}
    (h : ∀ s ∈ blocks, s.length = m) (i : Nat) :
    blocks.flatten[i]? = blocks[i / m]?.bind (·[i % m]?) := by
  induction blocks generalizing i with
  | nil => rfl
  | cons s blocks ih =>
    have hs := h s List.mem_cons_self
    rw [List.flatten_cons]
    by_cases hi : i < m
    · rw [List.getElem?_append_left (by omega), Nat.div_eq_of_lt hi, Nat.mod_eq_of_lt hi]
      rfl
    · have hle := Nat.le_of_not_lt hi
      rw [List.getElem?_append_right (by omega), hs, ih fun t ht => h t (List.mem_cons_of_mem s ht),
        Nat.div_eq_sub_div hm hle, List.getElem?_cons_succ, Nat.mod_eq_sub_mod hle]

theorem getElem?_keystream (hi : i < n) :
    (keystream (Utf16.ofText password) salt n)[i]? = some (streamByte password salt i) := by
  have hblock : i / 20 < (n + (Sha1.size - 1)) / Sha1.size := by
    simp only [Sha1.size]
    omega
  rw [keystream, List.getElem?_take_of_lt hi, digests_eq, getElem?_flatten_of_length
    (m := 20) (by decide), List.getElem?_map, List.getElem?_range hblock]
  · exact getElem?_chain password salt i
  · intro s hs
    obtain ⟨k, -, rfl⟩ := List.mem_map.mp hs
    exact length_chain_succ password salt k

/-- Each hidden byte is the byte of the key plus that of the stream. -/
theorem getElem?_uncover (password salt s : Bytes) (i : Nat) :
    (uncover (Utf16.ofText password) salt s)[i]?
      = s[i]?.map (· ^^^ streamByte password salt i) := by
  rw [uncover, xor, List.getElem?_zipWith]
  by_cases hi : i < s.length
  · rw [getElem?_keystream hi, List.getElem?_eq_getElem hi]
    rfl
  · rw [List.getElem?_eq_none (Nat.le_of_not_lt hi)]
    rfl

/-- What is hidden of a longer key begins with what is hidden of the shorter one. -/
theorem uncover_isPrefix (password salt : Bytes) {s t : Bytes} (h : s <+: t) :
    uncover (Utf16.ofText password) salt s <+: uncover (Utf16.ofText password) salt t := by
  rw [List.prefix_iff_getElem?]
  intro i hi
  have his : i < s.length := by rwa [length_uncover] at hi
  rw [← List.getElem?_eq_getElem hi, getElem?_uncover, getElem?_uncover,
    List.prefix_iff_getElem?.mp h i his, List.getElem?_eq_getElem his]

/-- Adding two of them takes the stream away. -/
theorem xor_uncover (password salt s t : Bytes) :
    xor (uncover (Utf16.ofText password) salt s) (uncover (Utf16.ofText password) salt t)
      = xor s t := by
  have hbyte : ∀ a b c : UInt8, (a ^^^ c) ^^^ (b ^^^ c) = a ^^^ b := by
    intro a b c
    rw [UInt8.xor_comm b c, ← UInt8.xor_assoc, UInt8.xor_assoc a c c, UInt8.xor_self,
      UInt8.xor_zero]
  apply List.ext_getElem?
  intro i
  unfold xor
  rw [List.getElem?_zipWith, List.getElem?_zipWith, getElem?_uncover, getElem?_uncover]
  cases s[i]? with
  | none => rfl
  | some a =>
    cases t[i]? with
    | none => rfl
    | some b => exact congrArg some (hbyte a b _)

/-! ## The bytes of a protected key -/

/-- Between the salt and the check stands what the stream makes of the key. -/
theorem hiddenPart_of_protect (h : protect password salt plain = .ok blob) :
    hiddenPart blob = uncover (Utf16.ofText password) salt plain := by
  obtain ⟨hsalt, rfl⟩ := protect_eq_ok_iff.mp h
  have hsize : (hide (Utf16.ofText password) salt plain).length - 40
      = (uncover (Utf16.ofText password) salt plain).length := by
    rw [length_hide hsalt, length_uncover]
    exact Nat.add_sub_cancel _ _
  rw [hiddenPart, hsize, hide_eq, List.append_assoc, List.drop_left' hsalt, List.take_left]

/-- A byte behind the salt is that of the key plus that of the stream. -/
theorem getElem?_of_protect (h : protect password salt plain = .ok blob) (hi : i < plain.length) :
    blob[20 + i]? = some (plain[i] ^^^ streamByte password salt i) := by
  obtain ⟨hsalt, rfl⟩ := protect_eq_ok_iff.mp h
  have hsalt' : salt.length = 20 := hsalt
  rw [hide_eq, List.append_assoc, List.getElem?_append_right (by omega), hsalt',
    Nat.add_sub_cancel_left, List.getElem?_append_left (by rwa [length_uncover]),
    getElem?_uncover, List.getElem?_eq_getElem hi, Option.map_some]

/-- The hidden bytes against the chain of digests. Every key is protected; the rounds for its
stream are as many as there are twenties in its length, rounded up, and what they make covers it;
each byte behind the salt is a byte of the key plus the byte of the chain at its place. Under the
same password and salt the hidden bytes of the front of a key are the front of its hidden bytes,
and what two keys differ by is what their hidden bytes differ by, as far as both go. -/
theorem hiddenPart_eq_of_chain (password : Bytes) {salt : Bytes} (hsalt : salt.length = saltSize) :
    (∀ plain : Bytes, ∃ blob made, protect password salt plain = .ok blob
      ∧ (hiddenPart blob).length = plain.length
      ∧ (∀ k t, Making.Runs password plain.length k (Making.start salt) t ↔
        k = (plain.length + 19) / 20 ∧ t = made)
      ∧ hiddenPart blob = xor plain (made.stream.take plain.length)
      ∧ ∀ i (hi : i < plain.length), ∃ d, (chain password salt (i / 20 + 1))[i % 20]? = some d
        ∧ blob[20 + i]? = some (plain[i] ^^^ d))
    ∧ ∀ plain plain' blob blob' : Bytes, protect password salt plain = .ok blob →
      protect password salt plain' = .ok blob' →
      (plain <+: plain' → hiddenPart blob <+: hiddenPart blob')
        ∧ xor (hiddenPart blob) (hiddenPart blob') = xor plain plain' := by
  constructor
  · intro plain
    have hprotect : protect password salt plain = .ok (hide (Utf16.ofText password) salt plain) :=
      protect_eq_ok_iff.mpr ⟨hsalt, rfl⟩
    have hhidden := hiddenPart_of_protect hprotect
    refine ⟨_, Making.after password salt ((plain.length + 19) / 20), hprotect, ?_,
      fun k t => Making.runs_start_iff, ?_, fun i hi => ?_⟩
    · rw [hhidden, length_uncover]
    · rw [hhidden, ← keystream_eq_take]
      rfl
    · exact ⟨_, getElem?_chain password salt i, getElem?_of_protect hprotect hi⟩
  · intro plain plain' blob blob' h h'
    rw [hiddenPart_of_protect h, hiddenPart_of_protect h']
    exact ⟨uncover_isPrefix password salt, xor_uncover password salt plain plain'⟩

/-- Forty bytes take two rounds, and one byte more takes a third. -/
theorem hiddenPart_eq_of_chain_sample :
    (List.replicate 20 7 : Bytes).length = saltSize
      ∧ ∃ blob blob', protect (Bytes.ascii "changeit") (List.replicate 20 7) (List.replicate 40 1)
          = .ok blob
        ∧ protect (Bytes.ascii "changeit") (List.replicate 20 7) (List.replicate 41 1) = .ok blob'
        ∧ hiddenPart blob <+: hiddenPart blob'
        ∧ (∃ t, Making.Runs (Bytes.ascii "changeit") 40 2 (Making.start (List.replicate 20 7)) t)
        ∧ ∃ t, Making.Runs (Bytes.ascii "changeit") 41 3
          (Making.start (List.replicate 20 7)) t := by
  obtain ⟨hbytes, htwo⟩ :=
    @hiddenPart_eq_of_chain (Bytes.ascii "changeit") (List.replicate 20 7) rfl
  obtain ⟨blob, made, hblob, -, hruns, -⟩ := hbytes (List.replicate 40 1)
  obtain ⟨blob', made', hblob', -, hruns', -⟩ := hbytes (List.replicate 41 1)
  have hfront : (List.replicate 40 1 : Bytes) <+: List.replicate 41 1 := by decide
  exact ⟨rfl, blob, blob', hblob, hblob', (htwo _ _ _ _ hblob hblob').1 hfront,
    ⟨made, (hruns 2 made).mpr ⟨rfl, rfl⟩⟩, ⟨made', (hruns' 3 made').mpr ⟨rfl, rfl⟩⟩⟩

end Keystore.KeyProtector
