import Keystore.Proofs.Field
import Keystore.Proofs.StoreListing
import Keystore.Proofs.Text

/-!
# What the trailer of a file seals

The digested message is the password in UTF-16, a phrase and the body, with nothing to mark
where one ends and the next begins. Still, with the body given the message determines the
password's form, and with the password given it determines the body, because the other part
can be cancelled (`Trailer.message_password`, `Trailer.message_body`). So whoever gets another
password or another body accepted under one trailer holds a pair of messages with one digest,
and the pair is named here (`Sha1.IsCollision`); that some pair collides is no news for a
digest of twenty bytes.

The main statement is `Contents.isSealed_of_run_toFile`: a file that was written shows its
header, is valid under its password, and any other password, trailer or body is refused or
comes with such a pair.
-/

namespace Keystore

/-- Two messages with one digest. -/
structure Sha1.IsCollision (a b : Bytes) : Prop where
  ne : a ≠ b
  digest_eq : Sha1.digest a = Sha1.digest b

namespace Trailer

variable {p q body body' file trailer : Bytes}

/-- What the trailer is the digest of. -/
def message (password body : Bytes) : Bytes := Utf16.ofText password ++ (phrase ++ body)

theorem message_password (h : message p body = message q body) :
    Utf16.ofText p = Utf16.ofText q := List.append_cancel_right h

theorem message_body (h : message p body = message p body') : body = body' :=
  List.append_cancel_left (List.append_cancel_left h)

theorem length_make : (make p body).length = 20 := Sha1.length_digest _

theorem isValid_iff : isValid p file = true ↔
    20 ≤ file.length ∧ make p (file.take (file.length - 20)) = file.drop (file.length - 20) := by
  unfold isValid split
  rw [Bool.and_eq_true, decide_eq_true_iff, beq_iff_eq, List.splitAt_eq]

theorem isValid_append_iff (h : trailer.length = 20) :
    isValid p (body ++ trailer) = true ↔ make p body = trailer := by
  have hbody : (body ++ trailer).length - 20 = body.length := by
    rw [List.length_append, h, Nat.add_sub_cancel]
  rw [isValid_iff, hbody, List.take_left, List.drop_left, List.length_append, h]
  exact and_iff_right (Nat.le_add_left _ _)

/-- One trailer for two passwords: they look the same, or they make a collision. -/
theorem ofText_eq_or_isCollision (h : make q body = make p body) :
    Utf16.ofText q = Utf16.ofText p ∨ Sha1.IsCollision (message q body) (message p body) := by
  by_cases hsame : message q body = message p body
  · exact Or.inl (message_password hsame)
  · exact Or.inr ⟨hsame, h⟩

/-- One trailer for two bodies: they make a collision. -/
theorem isCollision_of_ne (hne : body' ≠ body) (h : make p body' = make p body) :
    Sha1.IsCollision (message p body') (message p body) :=
  ⟨fun hsame => hne (message_body hsame), h⟩

end Trailer

namespace Contents

variable {passwords : Passwords} {c : Contents} {s s' : Supply} {file : Bytes}

/-- A file shows the header of its entries to everybody, is valid under its password, and
whatever else seems valid comes with a collision. -/
structure IsSealed (c : Contents) (password file : Bytes) : Prop where
  header : ∃ h, Header.read file = .ok h
    ∧ h.magicOk = true ∧ h.versionOk = true
    ∧ h.entryCount.toNat = c.certificates.length + c.keys.length
    ∧ h.bodyLength = file.length - 20
    ∧ h.digest = file.drop (file.length - 20)
    ∧ h.digest = Trailer.make password (file.take (file.length - 20))
  valid : Trailer.isValid password file = true
  otherPassword : ∀ q, Trailer.isValid q file = true →
    Utf16.ofText q = Utf16.ofText password
      ∨ Sha1.IsCollision (Trailer.message q (file.take (file.length - 20)))
          (Trailer.message password (file.take (file.length - 20)))
  otherText : ∀ q, Utf8.isWellFormed q = true → Utf8.isWellFormed password = true →
    Trailer.isValid q file = true →
    q = password
      ∨ Sha1.IsCollision (Trailer.message q (file.take (file.length - 20)))
          (Trailer.message password (file.take (file.length - 20)))
  otherTrailer : ∀ file' : Bytes, file'.length = file.length →
    file'.take (file.length - 20) = file.take (file.length - 20) → file' ≠ file →
    Trailer.isValid password file' = false
  otherBody : ∀ body' : Bytes, body' ≠ file.take (file.length - 20) →
    Trailer.isValid password (body' ++ file.drop (file.length - 20)) = true →
    Sha1.IsCollision (Trailer.message password body')
      (Trailer.message password (file.take (file.length - 20)))

theorem read_layout (passwords : Passwords) (now : Instant) (random : Bytes)
    (hsize : c.size ≤ entryLimit) :
    ∃ h, Header.read (c.layout passwords now random) = .ok h
      ∧ h.Shows (c.layout passwords now random)
      ∧ h.magicOk = true ∧ h.versionOk = true
      ∧ h.entryCount.toNat = c.certificates.length + c.keys.length := by
  obtain ⟨rest, hrest, hlayout⟩ : ∃ rest : Bytes, 20 ≤ rest.length
      ∧ c.layout passwords now random = Header.bytes c.size ++ rest := by
    refine ⟨_, ?_, by rw [layout, bodyLayout, List.append_assoc, List.append_assoc]⟩
    rw [List.length_append, List.length_append, Trailer.length_make]
    omega
  rw [hlayout]
  have hlength : (Header.bytes c.size ++ rest).length = 12 + rest.length := List.length_append
  rcases Header.read_cases (Header.bytes c.size ++ rest) with ⟨hshort, -⟩ | ⟨-, h, hread, hshows⟩
  · omega
  · obtain ⟨hmagic, hversion, hcount⟩ := hshows.of_bytes
    refine ⟨h, hread, hshows, ?_, ?_, ?_⟩
    · rw [Header.magicOk, hmagic, beq_self_eq_true]
    · rw [Header.versionOk, hversion, beq_self_eq_true]
    · rw [hcount]
      exact Field.toNat_ofNat_length hsize

theorem isValid_layout (passwords : Passwords) (now : Instant) (random : Bytes) (c : Contents) :
    Trailer.isValid passwords.store (c.layout passwords now random) = true :=
  (Trailer.isValid_append_iff Trailer.length_make).mpr rfl

/-- What was written is sealed. -/
theorem isSealed_of_run_toFile (hrun : (c.toFile passwords).run.run s = (.ok file, s')) :
    c.IsSealed passwords.store file := by
  obtain ⟨hstorable, -, hfile, -⟩ := run_toFile_eq_ok.mp hrun
  obtain ⟨h, hread, hshows, hmagic, hversion, hcount⟩ :=
    read_layout passwords s.now s.random hstorable.size
  have hbody := take_layout passwords s.now s.random c
  have htrailer := drop_layout passwords s.now s.random c
  have hvalid := isValid_layout passwords s.now s.random c
  rw [← hfile] at hread hshows hbody htrailer hvalid
  -- from here on a file is its body and a trailer that is made from it
  have hmake : Trailer.make passwords.store (file.take (file.length - 20))
      = file.drop (file.length - 20) := by rw [hbody, htrailer]
  have hjoin : file.take (file.length - 20) ++ file.drop (file.length - 20) = file :=
    List.take_append_drop _ file
  have hsize : (file.drop (file.length - 20)).length = 20 := by
    rw [← hmake]
    exact Trailer.length_make
  have haccepted : ∀ q, Trailer.isValid q file = true →
      Trailer.make q (file.take (file.length - 20))
        = Trailer.make passwords.store (file.take (file.length - 20)) := by
    intro q hq
    exact (Trailer.isValid_iff.mp hq).2.trans hmake.symm
  refine ⟨⟨h, hread, hmagic, hversion, hcount, hshows.bodyLength, hshows.digest, ?_⟩, hvalid,
    ?_, ?_, ?_, ?_⟩
  · exact hshows.digest.trans hmake.symm
  · intro q hq
    exact Trailer.ofText_eq_or_isCollision (haccepted q hq)
  · intro q hqText hText hq
    exact (Trailer.ofText_eq_or_isCollision (haccepted q hq)).imp_left
      (Utf16.ofText_inj hqText hText)
  · intro file' hlength hsame hne
    refine Bool.eq_false_iff.mpr fun hvalid' => hne ?_
    obtain ⟨-, hother⟩ := Trailer.isValid_iff.mp hvalid'
    rw [hlength, hsame, hmake] at hother
    rw [← List.take_append_drop (file.length - 20) file', hsame, ← hother, hjoin]
  · intro body' hne hvalid'
    have hother := (Trailer.isValid_append_iff hsize).mp hvalid'
    exact Trailer.isCollision_of_ne hne (hother.trans hmake.symm)

/-- The sample, once written, is sealed under its password. -/
theorem isSealed_sample :
    ∃ file s', (Contents.sample.toFile Passwords.sample).run.run Supply.sample = (.ok file, s')
      ∧ Contents.sample.IsSealed (Bytes.ascii "changeit") file := by
  have hrun : (Contents.sample.toFile Passwords.sample).run.run Supply.sample = (.ok _, _) :=
    Contents.run_toFile_eq_ok.mpr ⟨Contents.storable_sample, by decide, rfl, rfl⟩
  exact ⟨_, _, hrun, isSealed_of_run_toFile hrun⟩

end Contents

end Keystore
