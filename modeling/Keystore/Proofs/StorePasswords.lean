import Keystore.Proofs.PackCommand
import Keystore.Proofs.StoreSeal

/-!
# Where passwords go

Each key is protected by the password for its alias, and the trailer is made with the
password of the store. No password goes anywhere else: two sets of passwords that are
the same for every key, and be it only in UTF-16, lead to the same fault or to files
that differ in their trailers at most (`Contents.SameUpToTrailer`).

The reason is that everything in front of the trailer is one computation that asks for
passwords of keys only, and asks for them at one place (`KeyEntry.record_congr`); making
the trailer cannot fail (`Contents.run_toFile`). The main statement, with what follows for
passwords that no key asks for, is `Contents.passwordsStayApart`.
-/

namespace Keystore

variable {p q : Passwords}

/-! ## The password for a key -/

/-- A password that is added last is that of all keys with its alias, and of no others. -/
theorem Passwords.forKey_append (store : Bytes) (own : List (Bytes × Bytes))
    (owner password name : Bytes) :
    (⟨store, own ++ [(owner, password)]⟩ : Passwords).forKey name
      = if owner = name then password else (⟨store, own⟩ : Passwords).forKey name := by
  unfold forKey
  rw [List.reverse_append, List.reverse_singleton, List.singleton_append, List.find?_cons]
  by_cases h : owner = name
  · simp only [h, beq_self_eq_true, if_true, Option.map_some, Option.getD_some]
  · simp only [beq_false_of_ne h, if_neg h]

/-- Passwords for other aliases do not matter. -/
theorem Passwords.forKey_filter (keep : Bytes → Bool) {name : Bytes} (h : keep name = true)
    (p : Passwords) :
    (⟨p.store, p.own.filter fun a => keep a.1⟩ : Passwords).forKey name = p.forKey name := by
  rw [forKey_eq, forKey_eq, List.filterMap_filter]
  congr 3
  funext a
  by_cases hsame : a.1 = name
  · simp only [hsame, h, if_true]
  · simp only [if_neg hsame, ite_self]

/-- A key with a password of its own does not ask for that of the store. -/
theorem Passwords.forKey_of_mem {name : Bytes} (h : ∃ password, (name, password) ∈ p.own)
    (store : Bytes) : (⟨store, p.own⟩ : Passwords).forKey name = p.forKey name := by
  obtain ⟨password, hmem⟩ := h
  have hsome : (p.own.reverse.find? fun own => own.1 == name).isSome = true :=
    List.find?_isSome.mpr ⟨(name, password), List.mem_reverse.mpr hmem, beq_self_eq_true name⟩
  obtain ⟨a, hfind⟩ := Option.isSome_iff_exists.mp hsome
  unfold forKey
  dsimp only
  rw [hfind, Option.map_some, Option.getD_some, Option.getD_some]

/-! ## In front of the trailer -/

/-- Hiding a key depends on the form of the password in UTF-16. -/
theorem KeyProtector.protect_congr {a b : Bytes} (h : Utf16.ofText a = Utf16.ofText b) :
    protect a = protect b := by
  funext salt plain
  rw [protect, protect, h]

theorem Record.protectedField_congr {a b : Bytes} (h : Utf16.ofText a = Utf16.ofText b) :
    protectedField a = protectedField b := by
  funext kind key
  unfold protectedField protectData
  rw [KeyProtector.protect_congr h]

/-- A key's record asks for the password for its alias only. -/
theorem KeyEntry.record_congr {e : KeyEntry}
    (h : Utf16.ofText (p.forKey e.name) = Utf16.ofText (q.forKey e.name)) :
    e.record p = e.record q := by
  unfold KeyEntry.record Record.keyField
  rw [Record.protectedField_congr h]

namespace Contents

/-- Everything of a file in front of its trailer, in the order in which it comes about. -/
def body (passwords : Passwords) (c : Contents) : Task Bytes := do
  Task.note (.moved .start .header)
  let header ← Task.during .header (liftM c.headerField)
  Task.note (.moved .header .certs)
  let certificates ← Task.during .certs (c.certificates.mapM CertificateEntry.record)
  Task.note (.moved .certs .keypairs)
  let keys ← Task.during .keypairs (c.keys.mapM (KeyEntry.record passwords))
  Task.note (.moved .keypairs .digest)
  return header ++ certificates.flatten ++ keys.flatten

theorem body_congr {c : Contents}
    (h : ∀ e ∈ c.keys, Utf16.ofText (p.forKey e.name) = Utf16.ofText (q.forKey e.name)) :
    c.body p = c.body q := by
  unfold body
  rw [Computation.mapM_congr fun e he => KeyEntry.record_congr (h e he)]

/-- The notices of the trailer, for a file of `size` bytes. -/
def trailerNotices (c : Contents) (size : Nat) : List Notice :=
  [.moved .digest .done, .written c.certificates.length c.keys.length size]

/-- A file is its body and the trailer of the body; making the trailer always succeeds. -/
theorem run_toFile (passwords : Passwords) (c : Contents) (s : Supply) :
    (c.toFile passwords).run.run s = match (c.body passwords).run.run s with
      | (.ok body, s') => (.ok (body ++ Trailer.make passwords.store body),
          s'.noted (c.trailerNotices (body.length + 20)))
      | (.error f, s') => (.error f, s') := by
  have hparts : c.toFile passwords = c.body passwords >>= fun body => do
      Task.note (.moved .digest .done)
      Task.note (.written c.certificates.length c.keys.length
        (body ++ Trailer.make passwords.store body).length)
      return body ++ Trailer.make passwords.store body := by
    unfold toFile body
    simp only [bind_assoc, pure_bind]
  rw [hparts, Computation.run_bind]
  rcases (c.body passwords).run.run s with ⟨_ | body, s'⟩
  · rfl
  · dsimp only
    rw [Computation.run_bind_of_ok (Task.run_note _ _),
      Computation.run_bind_of_ok (Task.run_note _ _), List.length_append, Trailer.length_make,
      Supply.noted_noted]
    rfl

/-- How two runs end that differ in passwords of the store at most: with the same fault, or
with files that are the same in front of their trailers, and altogether if the passwords
are the same. Either way they leave the same supply. -/
inductive SameUpToTrailer (samePassword : Prop) :
    Except Fault Bytes × Supply → Except Fault Bytes × Supply → Prop
  | failed (f : Fault) (s : Supply) : SameUpToTrailer samePassword (.error f, s) (.error f, s)
  | written {f g : Bytes} (s : Supply) (hlength : f.length = g.length)
    (hbody : f.take (f.length - 20) = g.take (g.length - 20)) (hsame : samePassword → f = g) :
    SameUpToTrailer samePassword (.ok f, s) (.ok g, s)

theorem sameUpToTrailer_of_forKey {c : Contents}
    (h : ∀ e ∈ c.keys, Utf16.ofText (p.forKey e.name) = Utf16.ofText (q.forKey e.name))
    (s : Supply) :
    SameUpToTrailer (Utf16.ofText p.store = Utf16.ofText q.store)
      ((c.toFile p).run.run s) ((c.toFile q).run.run s) := by
  rw [run_toFile, run_toFile, body_congr h]
  rcases (c.body q).run.run s with ⟨f | body, s'⟩
  · exact .failed f s'
  · have hsize : ∀ password : Bytes,
        (body ++ Trailer.make password body).length = body.length + 20 := by
      intro password
      rw [List.length_append, Trailer.length_make]
    refine .written _ ?_ ?_ ?_
    · rw [hsize, hsize]
    · rw [hsize, hsize, Nat.add_sub_cancel, List.take_left, List.take_left]
    · intro hstore
      rw [Trailer.make, Trailer.make, hstore]

/-- Passwords of keys go to the keys with their alias, and the password of the store goes to
the trailer and to keys that have no password of their own. -/
structure PasswordsStayApart (c : Contents) : Prop where
  outcome : ∀ (p q : Passwords) (s : Supply),
    (∀ e ∈ c.keys, Utf16.ofText (p.forKey e.name) = Utf16.ofText (q.forKey e.name)) →
    SameUpToTrailer (Utf16.ofText p.store = Utf16.ofText q.store)
      ((c.toFile p).run.run s) ((c.toFile q).run.run s)
  stray : ∀ (p q : Passwords) (s : Supply), p.store = q.store →
    (p.own.filter fun a => c.keys.any fun e => e.name == a.1)
      = (q.own.filter fun a => c.keys.any fun e => e.name == a.1) →
    (c.toFile p).run.run s = (c.toFile q).run.run s
  shared : ∀ (store : Bytes) (own : List (Bytes × Bytes)) (owner password : Bytes),
    ∀ e ∈ c.keys, (⟨store, own ++ [(owner, password)]⟩ : Passwords).forKey e.name
      = if owner = e.name then password else (⟨store, own⟩ : Passwords).forKey e.name
  store : ∀ (p : Passwords) (store : Bytes) (s : Supply),
    (∀ e ∈ c.keys, ∃ password, (e.name, password) ∈ p.own) →
    SameUpToTrailer (Utf16.ofText p.store = Utf16.ofText store)
      ((c.toFile p).run.run s) ((c.toFile ⟨store, p.own⟩).run.run s)

/-- This holds for every store. -/
theorem passwordsStayApart (c : Contents) : c.PasswordsStayApart := by
  refine ⟨fun p q s h => sameUpToTrailer_of_forKey h s, ?_, ?_, ?_⟩
  · intro p q s hstore hown
    -- every key finds the same password among those for aliases of keys
    have hsame : ∀ e ∈ c.keys, Utf16.ofText (p.forKey e.name) = Utf16.ofText (q.forKey e.name) := by
      intro e he
      have hborne : (c.keys.any fun k => k.name == e.name) = true :=
        List.any_eq_true.mpr ⟨e, he, beq_self_eq_true _⟩
      let borne (name : Bytes) : Bool := c.keys.any fun k => k.name == name
      rw [← Passwords.forKey_filter borne hborne p, hown, hstore,
        Passwords.forKey_filter borne hborne q]
    rw [run_toFile, run_toFile, body_congr hsame, hstore]
  · intro store own owner password e _
    exact Passwords.forKey_append store own owner password e.name
  · intro p store s hown
    refine sameUpToTrailer_of_forKey (q := ⟨store, p.own⟩) (fun e he => ?_) s
    rw [Passwords.forKey_of_mem (hown e he) store]

/-- The sample under another password: its key has a password of its own, so the file is
the same up to the trailer. -/
theorem passwordsStayApart_sample :
    (∀ e ∈ Contents.sample.keys, ∃ password, (e.name, password) ∈ Passwords.sample.own)
      ∧ ∃ f g s', (Contents.sample.toFile Passwords.sample).run.run Supply.sample = (.ok f, s')
        ∧ (Contents.sample.toFile ⟨[0x71], Passwords.sample.own⟩).run.run Supply.sample
          = (.ok g, s')
        ∧ f.take (f.length - 20) = g.take (g.length - 20) := by
  have hown : ∀ e ∈ Contents.sample.keys, ∃ password,
      (e.name, password) ∈ Passwords.sample.own :=
    List.forall_mem_singleton.mpr ⟨[0x71], List.mem_singleton.mpr rfl⟩
  have hrun : (Contents.sample.toFile Passwords.sample).run.run Supply.sample = (.ok _, _) :=
    run_toFile_eq_ok.mpr ⟨storable_sample, by decide, rfl, rfl⟩
  have hends := (passwordsStayApart Contents.sample).store Passwords.sample [0x71]
    Supply.sample hown
  refine ⟨hown, ?_⟩
  rw [hrun] at hends ⊢
  generalize (Contents.sample.toFile ⟨[0x71], Passwords.sample.own⟩).run.run Supply.sample = out
    at hends ⊢
  cases hends with
  | written s hlength hbody hsame => exact ⟨_, _, _, rfl, rfl, hbody⟩

end Contents

end Keystore
