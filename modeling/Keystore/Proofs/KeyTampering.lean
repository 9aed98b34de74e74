import Keystore.Proofs.KeyProtector
import Keystore.Proofs.StoreSeal

/-!
# A protected key that was changed

A protected key is a salt, hidden bytes and a check. Whatever stands there, `unprotect` adds the
stream of the password and the salt to the hidden bytes and compares the check with the digest
over the result (`unprotect_eq`). So it is enough to see what a change does to the two sides of
that comparison: another check is a side of its own, other hidden bytes reveal another key, because
adding a stream loses nothing (`uncover_inj`), and another salt reveals any key, possibly the
same one.

The main statement is `tamperEvident_protect`: a change to a single part is rejected, or else
two messages have one digest, and then these messages are named (`Sha1.IsCollision`).
-/

namespace Keystore.KeyProtector

variable {password salt plain blob blob' : Bytes}

/-! ## What a protected key reveals -/

/-- The hidden bytes between the salt and the check. -/
def hiddenPart (blob : Bytes) : Bytes := (blob.drop 20).take (blob.length - 40)

/-- What the stream of a password makes of the hidden bytes, whether the check fits it or not. -/
def revealed (password blob : Bytes) : Bytes :=
  uncover (Utf16.ofText password) (blob.take 20) (hiddenPart blob)

/-- The check does not fit. -/
def IsRejected (password blob : Bytes) : Prop :=
  ∃ f, unprotect password blob = .error f ∧ f.kind = .checksumMismatch

/-- The three parts are all there is. -/
theorem take_hiddenPart_drop (h : 40 ≤ blob.length) :
    blob.take 20 ++ hiddenPart blob ++ blob.drop (blob.length - 20) = blob := by
  have hback : blob.drop (blob.length - 20) = (blob.drop 20).drop (blob.length - 40) := by
    rw [List.drop_drop]
    congr 1
    omega
  unfold hiddenPart
  rw [hback, List.append_assoc, List.take_append_drop, List.take_append_drop]

/-- `unprotect` compares the check with the digest over what is revealed. -/
theorem unprotect_eq (password : Bytes) (h : 40 ≤ blob.length) :
    unprotect password blob =
      if Sha1.digest (message password (revealed password blob)) = blob.drop (blob.length - 20) then
        .ok (revealed password blob)
      else .error .wrongPassword := by
  have hsalt : (blob.take 20).length = saltSize := by
    rw [List.length_take]
    exact Nat.min_eq_left (by omega)
  have hdigest : (blob.drop (blob.length - 20)).length = Sha1.size := by
    rw [List.length_drop]
    show blob.length - (blob.length - 20) = 20
    omega
  have hparts : unprotect password
      (blob.take 20 ++ hiddenPart blob ++ blob.drop (blob.length - 20)) = _ :=
    unprotect_parts password hsalt hdigest
  rwa [take_hiddenPart_drop h] at hparts

/-- What was revealed is given, or the check does not fit. -/
theorem unprotect_eq_or_isRejected (password : Bytes) (h : 40 ≤ blob.length) :
    unprotect password blob = .ok (revealed password blob) ∨ IsRejected password blob := by
  unfold IsRejected
  rw [unprotect_eq password h]
  split
  next => exact Or.inl rfl
  next => exact Or.inr ⟨_, rfl, rfl⟩

theorem isRejected_iff (password : Bytes) (h : 40 ≤ blob.length) :
    IsRejected password blob ↔
      Sha1.digest (message password (revealed password blob)) ≠ blob.drop (blob.length - 20) := by
  unfold IsRejected
  rw [unprotect_eq password h]
  split
  next hfits =>
    constructor
    · intro hrejected
      obtain ⟨f, hf, -⟩ := hrejected
      exact nomatch hf
    · intro hdiffers
      exact absurd hfits hdiffers
  next hdiffers =>
    constructor
    · intro _
      exact hdiffers
    · intro _
      exact ⟨_, rfl, rfl⟩

/-- A key that was recovered is what is revealed, and the check is the digest over it. -/
theorem digest_of_unprotect (h : unprotect password blob = .ok plain) :
    40 ≤ blob.length ∧ revealed password blob = plain
      ∧ blob.drop (blob.length - 20) = Sha1.digest (message password plain) := by
  have hlong : 40 ≤ blob.length := (unprotect_eq_ok_iff.mp h).1
  rw [unprotect_eq password hlong] at h
  split at h
  next hfits =>
    obtain rfl := Except.ok.inj h
    exact ⟨hlong, rfl, hfits.symm⟩
  next => exact nomatch h

/-! ## What a change does to it -/

/-- Hidden bytes under one stream are determined by what they hide. -/
theorem uncover_inj {password salt s t : Bytes}
    (h : uncover password salt s = uncover password salt t) : s = t := by
  have hback := congrArg (uncover password salt) h
  rwa [uncover_uncover, uncover_uncover] at hback

/-- What is revealed does not hang on the check. -/
theorem revealed_congr (password : Bytes) (h : 40 ≤ blob.length)
    (hlength : blob'.length = blob.length)
    (hfront : blob'.take (blob.length - 20) = blob.take (blob.length - 20)) :
    revealed password blob' = revealed password blob := by
  have hsalt : ∀ s : Bytes, s.take 20 = (s.take (blob.length - 20)).take 20 := by
    intro s
    rw [List.take_take]
    congr 1
    omega
  have hhidden : ∀ s : Bytes, (s.drop 20).take (blob.length - 40)
      = (s.take (blob.length - 20)).drop 20 := by
    intro s
    rw [List.drop_take, Nat.sub_sub]
  unfold revealed hiddenPart
  rw [hlength, hsalt blob', hhidden blob', hfront, ← hsalt, ← hhidden]

/-- Under one salt other hidden bytes reveal another key. -/
theorem revealed_ne (password : Bytes) (h : 40 ≤ blob.length) (hlength : blob'.length = blob.length)
    (hsalt : blob'.take 20 = blob.take 20)
    (hcheck : blob'.drop (blob.length - 20) = blob.drop (blob.length - 20)) (hne : blob' ≠ blob) :
    revealed password blob' ≠ revealed password blob := by
  intro hsame
  unfold revealed at hsame
  rw [hsalt] at hsame
  have hhidden : hiddenPart blob' = hiddenPart blob := uncover_inj hsame
  have hlong : 40 ≤ blob'.length := by omega
  apply hne
  rw [← take_hiddenPart_drop hlong, hlength, hsalt, hhidden, hcheck, take_hiddenPart_drop h]

/-! ## Changes are detected -/

/-- A protected key shows changes to a single part of it. Where a change is not rejected, the
password and the key that is revealed have the digest that the password and the right key have. -/
structure TamperEvident (password plain blob : Bytes) : Prop where
  otherCheck : ∀ blob' : Bytes, blob'.length = blob.length →
    blob'.take (blob.length - 20) = blob.take (blob.length - 20) → blob' ≠ blob →
    IsRejected password blob'
  otherHidden : ∀ blob' : Bytes, blob'.length = blob.length → blob'.take 20 = blob.take 20 →
    blob'.drop (blob.length - 20) = blob.drop (blob.length - 20) → blob' ≠ blob →
    message password plain ≠ message password (revealed password blob')
      ∧ (IsRejected password blob' ↔
        ¬ Sha1.IsCollision (message password plain) (message password (revealed password blob')))
  otherSalt : ∀ blob' : Bytes, blob'.length = blob.length → blob'.drop 20 = blob.drop 20 →
    (IsRejected password blob' ↔
      ¬ (revealed password blob' = plain
        ∨ Sha1.IsCollision (message password plain) (message password (revealed password blob'))))
  accepted : ∀ blob' : Bytes, blob'.length = blob.length → ¬ IsRejected password blob' →
    unprotect password blob' = .ok (revealed password blob')
  otherPassword : ∀ q plain' : Bytes, unprotect q blob = .ok plain' →
    Sha1.digest (message q plain') = Sha1.digest (message password plain)

theorem tamperEvident_of_unprotect (h : unprotect password blob = .ok plain) :
    TamperEvident password plain blob := by
  obtain ⟨hlong, hrevealed, hcheck⟩ := digest_of_unprotect h
  -- with the check kept, acceptance is one equation between two digests
  have hkept : ∀ blob' : Bytes, blob'.length = blob.length →
      blob'.drop (blob.length - 20) = blob.drop (blob.length - 20) →
      (IsRejected password blob' ↔ Sha1.digest (message password plain)
        ≠ Sha1.digest (message password (revealed password blob'))) := by
    intro blob' hlength hsame
    rw [isRejected_iff password (by omega), hlength, hsame, hcheck]
    exact ne_comm
  refine ⟨?_, ?_, ?_, ?_, ?_⟩
  · intro blob' hlength hfront hne
    rw [isRejected_iff password (by omega), revealed_congr password hlong hlength hfront, hrevealed,
      hlength, ← hcheck]
    intro hsame
    apply hne
    rw [← List.take_append_drop (blob.length - 20) blob', hfront, ← hsame, List.take_append_drop]
  · intro blob' hlength hsalt hsame hne
    have hother := revealed_ne password hlong hlength hsalt hsame hne
    have hmessage : message password plain ≠ message password (revealed password blob') := by
      intro heq
      rw [← hrevealed] at heq
      exact hother (List.append_cancel_left heq).symm
    refine ⟨hmessage, ?_⟩
    rw [hkept blob' hlength hsame]
    constructor
    · intro hdiffers hcollision
      exact hdiffers hcollision.digest_eq
    · intro hnone hdigest
      exact hnone ⟨hmessage, hdigest⟩
  · intro blob' hlength hback
    have hsame : blob'.drop (blob.length - 20) = blob.drop (blob.length - 20) := by
      have htail := congrArg (List.drop (blob.length - 40)) hback
      rw [List.drop_drop, List.drop_drop] at htail
      rwa [show blob.length - 20 = 20 + (blob.length - 40) by omega]
    rw [hkept blob' hlength hsame]
    constructor
    · intro hdiffers hcases
      rcases hcases with hplain | hcollision
      · rw [hplain] at hdiffers
        exact hdiffers rfl
      · exact hdiffers hcollision.digest_eq
    · intro hnone hdigest
      by_cases hplain : revealed password blob' = plain
      · exact hnone (Or.inl hplain)
      · have hmessage : message password plain ≠ message password (revealed password blob') :=
          fun heq => hplain (List.append_cancel_left heq).symm
        exact hnone (Or.inr ⟨hmessage, hdigest⟩)
  · intro blob' hlength hnot
    have hlong' : 40 ≤ blob'.length := by omega
    exact (unprotect_eq_or_isRejected password hlong').resolve_right hnot
  · intro q plain' hq
    obtain ⟨-, -, hother⟩ := digest_of_unprotect hq
    rw [← hother, ← hcheck]

/-- Under a salt of the right size every key is protected, and changes to a single part of the
result, and other passwords, are detected up to collisions. -/
theorem tamperEvident_protect (password plain salt : Bytes) (hsalt : salt.length = saltSize) :
    ∃ blob, protect password salt plain = .ok blob ∧ TamperEvident password plain blob :=
  ⟨hide (Utf16.ofText password) salt plain, protect_eq_ok_iff.mpr ⟨hsalt, rfl⟩,
    tamperEvident_of_unprotect (unprotect_hide password hsalt plain)⟩

/-- A key of twenty-one bytes under a password. -/
theorem tamperEvident_twentyOne :
    (List.replicate 20 7 : Bytes).length = saltSize
      ∧ ∃ blob, protect (Bytes.ascii "changeit") (List.replicate 20 7) (List.replicate 21 1)
          = .ok blob
        ∧ TamperEvident (Bytes.ascii "changeit") (List.replicate 21 1) blob :=
  ⟨rfl, tamperEvident_protect (Bytes.ascii "changeit") (List.replicate 21 1) _ rfl⟩

end Keystore.KeyProtector
