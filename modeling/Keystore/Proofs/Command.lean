import Keystore.CommandLine.Run
import Keystore.Proofs.FileTree
import Keystore.Proofs.Shell

/-!
# What the commands come to

The parts of a command that come before the output are settled by their results: the
password of the store, an entry for a certificate, an entry for a key. Each is given in
terms of the files and the environment, and leaves a session that is alike. So all of
them may be said of the session at the start, which is what `exists_of_runPack` does for
the whole of `pack`: the file it writes is made from what was there before.
-/

namespace Keystore

open Bytes (ascii)

variable {s s' : Session}

namespace CommandLine

/-! ## Passwords -/

/-- The text that stands for the password of the store. -/
def storeSource (env : Environment) (given : Bytes) : Bytes :=
  if given = [] then env.get (ascii "JKSPACK_STORE_PASSWORD") else given

theorem run_passwordOf (text : Bytes) (s : Session) :
    (passwordOf text).run.run s = (.ok (Password.ofText s.environment s.files text), s) := rfl

/-- A password of the store is never empty. -/
theorem run_requirePassword_eq_ok {given password : Bytes} :
    (requirePassword given).run.run s = (.ok password, s') ↔
      password = Password.ofText s.environment s.files (storeSource s.environment given)
        ∧ password ≠ [] ∧ s' = s := by
  unfold requirePassword storeSource
  rw [Computation.run_bind_of_ok (Shell.run_get s)]
  dsimp only
  rw [Computation.run_bind_of_ok (run_passwordOf _ s)]
  constructor
  · intro h
    split at h
    · exact nomatch congrArg Prod.fst h
    · next hsome =>
      obtain ⟨rfl, rfl⟩ := Computation.run_pure_eq_ok.mp h
      exact ⟨rfl, hsome, rfl⟩
  · rintro ⟨rfl, hsome, rfl⟩
    split
    · next hnil => exact absurd hnil hsome
    · rfl

/-- The passwords for keys are looked up one by one. -/
theorem run_keyPasswords_eq_ok {given own : List (Bytes × Bytes)}
    (h : (given.mapM fun (name, text) => return (name, ← passwordOf text) :
      Shell (List (Bytes × Bytes))).run.run s = (.ok own, s')) :
    own = given.map (fun a => (a.1, Password.ofText s.environment s.files a.2)) ∧ s' = s := by
  have hall := Computation.run_mapM_forall₂ (I := (· = s))
    (R := fun a b => b = (a.1, Password.ofText s.environment s.files a.2))
    (by
      rintro s₁ s₂ ⟨name, text⟩ b rfl hb
      rw [Computation.run_bind_of_ok (run_passwordOf text s₁)] at hb
      obtain ⟨rfl, rfl⟩ := Computation.run_pure_eq_ok.mp hb
      exact ⟨rfl, rfl⟩) rfl h
  refine ⟨?_, hall.2⟩
  clear h
  obtain ⟨hall, -⟩ := hall
  induction hall with
  | nil => rfl
  | cons hfirst _ ih => rw [hfirst, ih, List.map_cons]

end CommandLine

/-! ## Entries -/

/-- An entry for a certificate holds the first certificate of the file. -/
structure CertificateEntry.IsLoaded (files : FileTree) (time : Instant) (name path : Bytes)
    (e : CertificateEntry) : Prop where
  name : e.name = name
  time : e.time = time
  der : ∃ data rest, files.read path = .ok data ∧ Bundle.certificates data = e.der :: rest

/-- An entry for a key holds the key of one file and all certificates of another. -/
structure KeyEntry.IsLoaded (files : FileTree) (time : Instant)
    (source : CommandLine.KeySource) (e : KeyEntry) : Prop where
  name : e.name = source.name
  time : e.time = time
  key : ∃ data key, files.read source.path = .ok data ∧ Bundle.key? data = some key
    ∧ e.key = some key
  chain : source.chain = [] ∧ e.chain = []
    ∨ source.chain ≠ [] ∧ e.chain ≠ []
      ∧ ∃ data, files.read source.chain = .ok data ∧ e.chain = Bundle.certificates data

namespace CommandLine

/-- A certificate that is loaded leaves all else as it was. -/
theorem isLoaded_of_loadCertificate {time : Instant} {name path : Bytes} {e : CertificateEntry}
    (h : (loadCertificate time (name, path)).run.run s = (.ok e, s')) :
    e.IsLoaded s.files time name path ∧ s.Alike s' := by
  unfold loadCertificate at h
  obtain ⟨certificates, s₁, hread, hrest⟩ := Computation.run_bind_eq_ok.mp h
  obtain ⟨data, hdata, -, rfl, hsome, rfl⟩ := Shell.run_certificatesIn_eq_ok.mp hread
  obtain ⟨der, rest, hcons⟩ := List.exists_cons_of_ne_nil hsome
  have hder : (Bundle.certificates data).headD [] = der := by
    rw [hcons]
    rfl
  dsimp only at hrest
  rw [hder] at hrest
  split at hrest
  · obtain ⟨_, s₂, hreport, hentry⟩ := Computation.run_bind_eq_ok.mp hrest
    obtain ⟨rfl, rfl⟩ := Computation.run_pure_eq_ok.mp hentry
    obtain ⟨-, rfl⟩ := Prod.mk.inj hreport
    exact ⟨⟨rfl, rfl, data, rest, hdata, hcons⟩, Session.alike_report _ _⟩
  · obtain ⟨rfl, rfl⟩ := Computation.run_pure_eq_ok.mp hrest
    exact ⟨⟨rfl, rfl, data, rest, hdata, hcons⟩, .refl _⟩

theorem isLoaded_of_loadKeyEntry {time : Instant} {source : KeySource} {e : KeyEntry}
    (h : (loadKeyEntry time source).run.run s = (.ok e, s')) :
    e.IsLoaded s.files time source ∧ s' = s := by
  unfold loadKeyEntry at h
  obtain ⟨key, s₁, hkey, hrest⟩ := Computation.run_bind_eq_ok.mp h
  obtain ⟨data, hdata, -, hfound, rfl⟩ := Shell.run_keyIn_eq_ok.mp hkey
  dsimp only at hrest
  split at hrest
  · next hnone =>
    obtain ⟨chain, s₂, hchain, hentry⟩ := Computation.run_bind_eq_ok.mp hrest
    obtain ⟨rfl, rfl⟩ := Computation.run_pure_eq_ok.mp hchain
    obtain ⟨rfl, rfl⟩ := Computation.run_pure_eq_ok.mp hentry
    exact ⟨⟨rfl, rfl, ⟨data, key, hdata, hfound, rfl⟩, Or.inl ⟨hnone, rfl⟩⟩, rfl⟩
  · next hsome =>
    obtain ⟨chain, s₂, hchain, hentry⟩ := Computation.run_bind_eq_ok.mp hrest
    obtain ⟨file, hfile, -, rfl, hnonempty, rfl⟩ := Shell.run_certificatesIn_eq_ok.mp hchain
    obtain ⟨rfl, rfl⟩ := Computation.run_pure_eq_ok.mp hentry
    exact ⟨⟨rfl, rfl, ⟨data, key, hdata, hfound, rfl⟩,
      Or.inr ⟨hsome, hnonempty, file, hfile, rfl⟩⟩, rfl⟩

/-! ## Packing -/

/-- What `pack` does to a session: from the environment and the files at the start come
the passwords and the entries, from these the file, and the file is written. -/
structure Packs (s : Session) (o : PackOptions) (passwords : Passwords) (c : Contents)
    (file : Bytes) (s' : Session) : Prop where
  store : passwords.store
    = Password.ofText s.environment s.files (storeSource s.environment o.password)
  store_ne_nil : passwords.store ≠ []
  own : passwords.own
    = o.keyPasswords.map fun a => (a.1, Password.ofText s.environment s.files a.2)
  certificates : List.Forall₂
    (fun a e => CertificateEntry.IsLoaded s.files (o.time.getD .unset) a.1 a.2 e)
    o.certificates c.certificates
  keys : List.Forall₂ (KeyEntry.IsLoaded s.files (o.time.getD .unset)) o.keys c.keys
  made : ∃ used, (c.toFile passwords).run.run s.supply = (.ok file, used)
    ∧ s'.random = used.random
  written : s.files.write o.output file = .ok s'.files
  environment : s'.environment = s.environment

/-- A run of `pack` that comes to an end has packed. -/
theorem exists_of_runPack {o : PackOptions} {status : Nat}
    (h : (runPack o).run.run s = (.ok status, s')) :
    status = success ∧ ∃ passwords c file, Packs s o passwords c file s' := by
  unfold runPack at h
  obtain ⟨store, s₁, hstore, h₁⟩ := Computation.run_bind_eq_ok.mp h
  obtain ⟨hsource, hnonempty, rfl⟩ := run_requirePassword_eq_ok.mp hstore
  obtain ⟨own, s₂, hown, h₂⟩ := Computation.run_bind_eq_ok.mp h₁
  obtain ⟨howned, rfl⟩ := run_keyPasswords_eq_ok hown
  dsimp only at h₂
  -- the entries are loaded in sessions that are alike, so from the same files
  obtain ⟨certificates, s₃, hcertificates, h₃⟩ := Computation.run_bind_eq_ok.mp h₂
  obtain ⟨hcerts, halike₁⟩ := Computation.run_mapM_forall₂ (I := s₂.Alike)
    (R := fun (a : Bytes × Bytes) e =>
      CertificateEntry.IsLoaded s₂.files (o.time.getD .unset) a.1 a.2 e)
    (by
      rintro u u' ⟨name, path⟩ e hu hload
      obtain ⟨hloaded, hu'⟩ := isLoaded_of_loadCertificate hload
      rw [hu.files] at hloaded
      exact ⟨hloaded, hu.trans hu'⟩) (.refl s₂) hcertificates
  obtain ⟨keys, s₄, hkeys, h₄⟩ := Computation.run_bind_eq_ok.mp h₃
  obtain ⟨hkeyed, halike⟩ := Computation.run_mapM_forall₂ (I := s₂.Alike)
    (R := KeyEntry.IsLoaded s₂.files (o.time.getD .unset))
    (by
      intro u u' source e hu hload
      obtain ⟨hloaded, rfl⟩ := isLoaded_of_loadKeyEntry hload
      rw [hu.files] at hloaded
      exact ⟨hloaded, hu⟩) halike₁ hkeys
  -- the file is made and written
  obtain ⟨file, s₅, htask, h₅⟩ := Computation.run_bind_eq_ok.mp h₄
  obtain ⟨used, hfile, rfl⟩ := Shell.run_task_eq_ok.mp htask
  rw [halike.supply] at hfile
  have hafter := Session.alike_after s₄ used
  obtain ⟨⟨⟩, s₆, hwrite, h₆⟩ := Computation.run_bind_eq_ok.mp h₅
  obtain ⟨files, hfiles, rfl⟩ := Shell.run_write_eq_ok.mp hwrite
  rw [hafter.files] at hfiles
  have hwritten : s₂.files.write o.output file = .ok files := by
    rw [← halike.files]
    exact hfiles
  obtain ⟨⟨⟩, s₇, hprint, h₇⟩ := Computation.run_bind_eq_ok.mp h₆
  obtain ⟨-, rfl⟩ := Prod.mk.inj hprint
  obtain ⟨rfl, rfl⟩ := Computation.run_pure_eq_ok.mp h₇
  refine ⟨rfl, ⟨store, own⟩, ⟨certificates, keys⟩, file, ?_⟩
  exact {
    store := hsource
    store_ne_nil := hnonempty
    own := howned
    certificates := hcerts
    keys := hkeyed
    made := ⟨used, hfile, hafter.random⟩
    written := hwritten
    environment := hafter.environment.trans halike.environment }

/-! ## Command lines -/

theorem alike_applyFlags (flags : List GlobalFlag) (s : Session) :
    s.Alike (flags.foldl applyFlag s) := by
  induction flags generalizing s with
  | nil => exact .refl s
  | cons flag flags ih =>
    rw [List.foldl_cons]
    refine Session.Alike.trans ?_ (ih (applyFlag s flag))
    cases flag with
    | verbose => exact ⟨rfl, rfl, rfl, rfl, rfl, rfl⟩
    | noColor => exact ⟨rfl, rfl, rfl, rfl, rfl, rfl⟩

/-- What is packed depends on the surroundings of a session only. -/
theorem Packs.of_alike {s₁ : Session} {o : PackOptions} {passwords : Passwords} {c : Contents}
    {file : Bytes} (halike : s.Alike s₁) (h : Packs s₁ o passwords c file s') :
    Packs s o passwords c file s' := by
  obtain ⟨hstore, hne, hown, hcertificates, hkeys, hmade, hwritten, henvironment⟩ := h
  rw [halike.environment, halike.files] at hstore hown
  rw [halike.files] at hcertificates hkeys hwritten
  rw [halike.supply] at hmade
  rw [halike.environment] at henvironment
  exact ⟨hstore, hne, hown, hcertificates, hkeys, hmade, hwritten, henvironment⟩

/-- A command line of `pack` that ends with success has read its options and packed. -/
theorem exists_of_run_pack {args rest : List Bytes} {program : Bytes}
    (hargs : withoutGlobalFlags (args.map Bytes.untilNul) = program :: ascii "pack" :: rest)
    (h : run args s = (success, s')) :
    ∃ o passwords c file, PackOptions.read rest = .ok o ∧ Packs s o passwords c file s' := by
  have hcommand : Command.ofArgs (withoutGlobalFlags (args.map Bytes.untilNul)) = .pack rest := by
    rw [hargs]
    rfl
  have halike := alike_applyFlags ((args.map Bytes.untilNul).filterMap globalFlag?) s
  unfold run at h
  dsimp only at h
  rw [hcommand] at h
  split at h
  · next status s₁ hrun =>
    obtain ⟨-, rfl⟩ := Prod.mk.inj h
    unfold Command.run at hrun
    obtain ⟨o, s₂, hread, hpack⟩ := Computation.run_bind_eq_ok.mp hrun
    obtain ⟨hoptions, rfl⟩ := Prod.mk.inj hread
    obtain ⟨-, passwords, c, file, hpacks⟩ := exists_of_runPack hpack
    exact ⟨o, passwords, c, file, hoptions, hpacks.of_alike halike⟩
  · exact nomatch congrArg Prod.fst h

end CommandLine

end Keystore
