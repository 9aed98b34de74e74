import Keystore.KeyProtector

/-!
# Recovering what was hidden

`protect` and `unprotect` are exact inverses, for keys of every length: what is
hidden under a password and a salt comes back under the same password, and a
string of bytes that gives a key back under a password is the very string that
hiding this key under this password and the string's own salt gives.

Everything rests on one fact, `unprotect_parts`: on a salt, hidden bytes and a
digest that stand one after the other, `unprotect` compares the digest with the check
over the bytes that the key stream uncovers. Since the stream is as long as asked
for (`length_keystream`), adding it twice changes nothing (`xor_xor`), so hidden
bytes and uncovered bytes determine each other, at every length and in
particular where a digest of the stream ends.
-/

namespace Keystore.KeyProtector

/-! ## The key stream -/

theorem length_flatten_digests (password : Bytes) (n : Nat) (seed : Bytes) :
    (digests password n seed).flatten.length = n * Sha1.size := by
  induction n generalizing seed with
  | zero => rw [digests, List.flatten_nil, List.length_nil, Nat.zero_mul]
  | succ n ih =>
    rw [digests, List.flatten_cons, List.length_append, Sha1.length_digest, ih, Nat.succ_mul,
      Nat.add_comm]

/-- The stream is as long as asked for: the rounded-up number of digests suffices. -/
theorem length_keystream (password salt : Bytes) (n : Nat) :
    (keystream password salt n).length = n := by
  rw [keystream, List.length_take, length_flatten_digests]
  have hround : n ≤ (n + (Sha1.size - 1)) / Sha1.size * Sha1.size := by
    simp only [Sha1.size]
    omega
  exact Nat.min_eq_left hround

theorem length_xor (a b : Bytes) : (xor a b).length = min a.length b.length :=
  List.length_zipWith

/-- Adding the same bytes twice changes nothing, if there are enough of them. -/
theorem xor_xor {a b : Bytes} (h : a.length ≤ b.length) : xor (xor a b) b = a := by
  induction a generalizing b with
  | nil => rfl
  | cons x a ih =>
    cases b with
    | nil => exact absurd h (by simp)
    | cons y b =>
      have htail : xor (xor a b) b = a := ih (by simpa using h)
      show (x ^^^ y ^^^ y) :: xor (xor a b) b = x :: a
      rw [htail, UInt8.xor_assoc, UInt8.xor_self, UInt8.xor_zero]

/-- What the stream of a password and a salt makes of some bytes. -/
def uncover (password salt s : Bytes) : Bytes := xor s (keystream password salt s.length)

theorem length_uncover (password salt s : Bytes) : (uncover password salt s).length = s.length := by
  rw [uncover, length_xor, length_keystream, Nat.min_self]

/-- Covering and uncovering are the same operation, and undo each other. -/
theorem uncover_uncover (password salt s : Bytes) :
    uncover password salt (uncover password salt s) = s := by
  rw [uncover, length_uncover]
  exact xor_xor (Nat.le_of_eq (length_keystream _ _ _).symm)

/-! ## The parts of a protected key -/

theorem length_check (password plain : Bytes) : (check password plain).length = Sha1.size :=
  Sha1.length_digest _

/-- What the digests of a protected key are over: the password in UTF-16, and behind it the salt,
the digest before, or the key. -/
def message (password s : Bytes) : Bytes := Utf16.ofText password ++ s

theorem hide_eq (password salt plain : Bytes) :
    hide password salt plain = salt ++ uncover password salt plain ++ check password plain := rfl

theorem length_hide {password salt plain : Bytes} (h : salt.length = saltSize) :
    (hide password salt plain).length = plain.length + (saltSize + Sha1.size) := by
  rw [hide_eq, List.length_append, List.length_append, length_uncover, length_check, h]
  omega

/-- A string that is long enough has a salt, hidden bytes and a digest. -/
theorem exists_parts {blob : Bytes} (h : saltSize + Sha1.size ≤ blob.length) :
    ∃ salt hidden digest, blob = salt ++ hidden ++ digest ∧ salt.length = saltSize
      ∧ digest.length = Sha1.size := by
  refine ⟨blob.take saltSize, (blob.drop saltSize).take (blob.length - (saltSize + Sha1.size)),
    (blob.drop saltSize).drop (blob.length - (saltSize + Sha1.size)), ?_, ?_, ?_⟩
  · rw [List.append_assoc, List.take_append_drop, List.take_append_drop]
  · rw [List.length_take]
    omega
  · rw [List.length_drop, List.length_drop]
    omega

/-- `unprotect` on the three parts: the digest has to be the check over what the stream
uncovers. -/
theorem unprotect_parts (password : Bytes) {salt hidden digest : Bytes}
    (hsalt : salt.length = saltSize) (hdigest : digest.length = Sha1.size) :
    unprotect password (salt ++ hidden ++ digest) =
      if check (Utf16.ofText password) (uncover (Utf16.ofText password) salt hidden) = digest then
        .ok (uncover (Utf16.ofText password) salt hidden)
      else .error .wrongPassword := by
  have hsize : (salt ++ hidden ++ digest).length - saltSize - Sha1.size = hidden.length := by
    simp only [List.length_append, hsalt, hdigest]
    omega
  have hlong : ¬ (salt ++ hidden ++ digest).length < saltSize + Sha1.size := by
    simp only [List.length_append, hsalt, hdigest]
    omega
  have htake : (salt ++ hidden ++ digest).take saltSize = salt := by
    rw [List.append_assoc, List.take_left' hsalt]
  have hdrop : (salt ++ hidden ++ digest).drop saltSize = hidden ++ digest := by
    rw [List.append_assoc, List.drop_left' hsalt]
  simp only [unprotect, if_neg hlong, hsize, htake, hdrop, List.take_left, List.drop_left]
  rfl

/-- What was hidden is recovered. -/
theorem unprotect_hide (password : Bytes) {salt : Bytes} (h : salt.length = saltSize)
    (plain : Bytes) :
    unprotect password (hide (Utf16.ofText password) salt plain) = .ok plain := by
  rw [hide_eq, unprotect_parts password h (length_check _ _), uncover_uncover, if_pos rfl]

/-! ## What each answer of `unprotect` means -/

/-- Too short for a salt and a digest. -/
theorem unprotect_short {password blob : Bytes} (h : blob.length < saltSize + Sha1.size) :
    unprotect password blob = .error .protectedKeyTooShort := by
  simp only [unprotect, if_pos h]

/-- Only what hiding gives is recovered. -/
theorem unprotect_eq_ok_iff {password blob plain : Bytes} :
    unprotect password blob = .ok plain ↔
      saltSize + Sha1.size ≤ blob.length
        ∧ blob = hide (Utf16.ofText password) (blob.take saltSize) plain := by
  constructor
  · intro hok
    have hlong : saltSize + Sha1.size ≤ blob.length := by
      apply Nat.le_of_not_lt
      intro hshort
      rw [unprotect_short hshort] at hok
      exact nomatch hok
    obtain ⟨salt, hidden, digest, rfl, hsalt, hdigest⟩ := exists_parts hlong
    rw [unprotect_parts password hsalt hdigest] at hok
    split at hok
    next hcheck =>
      -- covering what was uncovered gives the hidden bytes back
      obtain rfl : uncover (Utf16.ofText password) salt hidden = plain := Except.ok.inj hok
      refine ⟨hlong, ?_⟩
      rw [hide_eq, List.append_assoc, List.take_left' hsalt, uncover_uncover, hcheck,
        List.append_assoc]
    next => exact nomatch hok
  · rintro ⟨hlong, hblob⟩
    have hsalt : (blob.take saltSize).length = saltSize := by
      rw [List.length_take]
      omega
    rw [hblob]
    exact unprotect_hide password hsalt plain

/-- There are three answers: a key, and two faults. -/
theorem unprotect_cases (password blob : Bytes) (h : saltSize + Sha1.size ≤ blob.length) :
    (∃ plain, unprotect password blob = .ok plain)
      ∨ unprotect password blob = .error .wrongPassword := by
  obtain ⟨salt, hidden, digest, rfl, hsalt, hdigest⟩ := exists_parts h
  rw [unprotect_parts password hsalt hdigest]
  split
  next => exact Or.inl ⟨_, rfl⟩
  next => exact Or.inr rfl

/-- The size of the salt is all that hiding asks for. -/
theorem protect_eq_ok_iff {password salt plain blob : Bytes} :
    protect password salt plain = .ok blob ↔
      salt.length = saltSize ∧ blob = hide (Utf16.ofText password) salt plain := by
  rw [protect]
  by_cases h : salt.length = saltSize
  · rw [if_pos h, Except.ok.injEq]
    exact ⟨fun e => ⟨h, e.symm⟩, fun e => e.2.symm⟩
  · rw [if_neg h]
    constructor
    · intro e
      exact nomatch e
    · intro e
      exact absurd e.1 h

/-- A string gives back a key exactly if it is what `protect` makes of the key under
the password and the string's own salt. -/
theorem unprotect_eq_ok_iff_protect {password blob plain : Bytes} :
    unprotect password blob = .ok plain ↔
      saltSize + Sha1.size ≤ blob.length
        ∧ protect password (blob.take saltSize) plain = .ok blob := by
  rw [unprotect_eq_ok_iff, protect_eq_ok_iff]
  constructor
  · rintro ⟨hlong, hblob⟩
    refine ⟨hlong, ?_, hblob⟩
    rw [List.length_take]
    omega
  · rintro ⟨hlong, _, hblob⟩
    exact ⟨hlong, hblob⟩

/-- `protect` and `unprotect` are exact inverses. Under every salt of the right size
each key is hidden, in forty bytes more than it has and behind the salt, and recovered.
Conversely a string is recovered from exactly if hiding the result under its own salt
gives it back; below forty bytes it is malformed, and all others do not pass the
check. -/
theorem unprotect_inverse_protect (password : Bytes) :
    (∀ salt plain : Bytes, salt.length = saltSize →
      ∃ blob, protect password salt plain = .ok blob ∧ blob.length = plain.length + 40
        ∧ salt <+: blob ∧ unprotect password blob = .ok plain)
    ∧ (∀ blob plain : Bytes, unprotect password blob = .ok plain ↔
        40 ≤ blob.length ∧ protect password (blob.take saltSize) plain = .ok blob)
    ∧ (∀ blob : Bytes, (∃ f, unprotect password blob = .error f ∧ f.kind = .malformedInput) ↔
        blob.length < 40)
    ∧ (∀ blob : Bytes, (∃ f, unprotect password blob = .error f ∧ f.kind = .checksumMismatch) ↔
        40 ≤ blob.length ∧ ∀ plain, protect password (blob.take saltSize) plain ≠ .ok blob) := by
  refine ⟨?_, fun blob plain => unprotect_eq_ok_iff_protect, ?_, ?_⟩
  · intro salt plain hsalt
    refine ⟨hide (Utf16.ofText password) salt plain, protect_eq_ok_iff.mpr ⟨hsalt, rfl⟩,
      length_hide hsalt, ?_, unprotect_hide password hsalt plain⟩
    rw [hide_eq, List.append_assoc]
    exact List.prefix_append _ _
  · intro blob
    constructor
    · rintro ⟨f, hf, hkind⟩
      apply Nat.lt_of_not_le
      intro hlong
      rcases unprotect_cases password blob hlong with ⟨plain, hok⟩ | hwrong
      · rw [hok] at hf
        exact nomatch hf
      · -- the answer behind forty bytes is of another kind
        rw [hwrong] at hf
        obtain rfl := Except.error.inj hf
        exact nomatch hkind
    · intro hshort
      exact ⟨_, unprotect_short hshort, rfl⟩
  · intro blob
    constructor
    · rintro ⟨f, hf, hkind⟩
      have hlong : 40 ≤ blob.length := by
        apply Nat.le_of_not_lt
        intro hshort
        rw [unprotect_short hshort] at hf
        obtain rfl := Except.error.inj hf
        exact nomatch hkind
      refine ⟨hlong, fun plain hplain => ?_⟩
      rw [unprotect_eq_ok_iff_protect.mpr ⟨hlong, hplain⟩] at hf
      exact nomatch hf
    · rintro ⟨hlong, hnone⟩
      rcases unprotect_cases password blob hlong with ⟨plain, hok⟩ | hwrong
      · exact absurd (unprotect_eq_ok_iff_protect.mp hok).2 (hnone plain)
      · exact ⟨_, hwrong, rfl⟩

/-- The inverse at work: a key of twenty-one bytes, one more than a digest of the
stream covers. -/
theorem unprotect_protect_twentyOne :
    (List.replicate 20 7 : Bytes).length = saltSize
      ∧ ∃ blob, protect (Bytes.ascii "changeit") (List.replicate 20 7) (List.replicate 21 1) = .ok blob
        ∧ blob.length = 61 ∧ List.replicate 20 7 <+: blob
        ∧ unprotect (Bytes.ascii "changeit") blob = .ok (List.replicate 21 1) :=
  ⟨rfl, (unprotect_inverse_protect (Bytes.ascii "changeit")).1 _ (List.replicate 21 1) rfl⟩

end Keystore.KeyProtector
