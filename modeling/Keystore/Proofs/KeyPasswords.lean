import Keystore.Proofs.KeyTampering
import Keystore.Proofs.PackCommand

/-!
# Keys without a password

The password of the store is never empty, because `pack` refuses an empty one. It is the password
of each key whose alias has none of its own. A password of its own is looked up in the same way,
but nothing refuses it when it comes to nothing: when the text is empty, or leads to a file of
nothing but line ends (`Password.IsBlank`).

So the keys of a packed file fall into two classes by the arguments alone. A key whose alias got
such a text last is open to everybody who tries the empty password; any other key is guarded, by a
password that is not empty in any form, and the empty one could open it only by a collision
(`KeyProtector.IsGuarded`). `run_pack_guards_keys` says so of each key in the file.
-/

namespace Keystore

open CommandLine Bytes

/-! ## Passwords that come to nothing -/

/-- A text that leads to the empty password: it is empty itself, or the path of a file with
nothing but line feeds and carriage returns. -/
inductive Password.IsBlank (env : Environment) (files : FileTree) : Bytes → Prop
  | empty : IsBlank env files []
  | file {text data : Bytes} (hfound : files.find? (candidate env text) = some (.file data))
    (hdata : ∀ b ∈ data, b = 0x0A ∨ b = 0x0D) : IsBlank env files text

theorem Bytes.dropEndWhile_eq_nil_iff {p : UInt8 → Bool} {s : Bytes} :
    Bytes.dropEndWhile p s = [] ↔ ∀ b ∈ s, p b = true := by
  unfold Bytes.dropEndWhile
  rw [List.reverse_eq_nil_iff, List.dropWhile_eq_nil_iff]
  simp only [List.mem_reverse]

theorem Password.ofText_eq_nil_iff {env : Environment} {files : FileTree} {text : Bytes} :
    ofText env files text = [] ↔ IsBlank env files text := by
  unfold ofText
  by_cases htext : text = []
  · rw [if_pos htext, htext]
    exact iff_of_true rfl .empty
  rw [if_neg htext]
  constructor
  · intro hnil
    split at hnil
    next data hfound =>
      have hdata := Bytes.dropEndWhile_eq_nil_iff.mp hnil
      exact .file hfound fun b hb => isLineEnd_iff.mp (hdata b hb)
    next => exact absurd hnil htext
  · intro hblank
    cases hblank with
    | empty => exact absurd rfl htext
    | file hfound hdata =>
      rw [hfound]
      exact Bytes.dropEndWhile_eq_nil_iff.mpr fun b hb => isLineEnd_iff.mpr (hdata b hb)

/-- A text has a form in UTF-16 unless it is empty. -/
theorem Utf16.ofText_ne_nil {s : Bytes} (h : s ≠ []) : ofText s ≠ [] := by
  intro hnil
  have hchars : (Utf8.segments s).map Utf8.Segment.char = [] :=
    encode_inj (show ofText s = encode [] from hnil)
  have hwhole := Utf8.flatMap_segments s
  rw [List.map_eq_nil_iff.mp hchars] at hwhole
  exact h hwhole.symm

/-! ## Keys that the empty password opens -/

namespace KeyProtector

variable {password blob plain plain' : Bytes}

/-- Whatever password seems to open a protected key, the key that comes out has the same size. -/
theorem length_of_unprotect (h : unprotect password blob = .ok plain) :
    plain.length = (hiddenPart blob).length := by
  obtain ⟨-, hrevealed, -⟩ := digest_of_unprotect h
  rw [← hrevealed]
  exact length_uncover _ _ _

/-- The messages of two passwords differ in length where their forms do. -/
theorem isCollision_of_unprotect_nil (hform : Utf16.ofText password ≠ [])
    (h : unprotect password blob = .ok plain) (hbare : unprotect [] blob = .ok plain') :
    Sha1.IsCollision (message [] plain') (message password plain) := by
  constructor
  · intro hsame
    have hlength := congrArg List.length hsame
    have hnil : (Utf16.ofText []).length = 0 := rfl
    have hpos := List.length_pos_of_ne_nil hform
    unfold message at hlength
    rw [List.length_append, List.length_append, length_of_unprotect h, length_of_unprotect hbare]
      at hlength
    omega
  · exact (tamperEvident_of_unprotect h).otherPassword [] plain' hbare

/-- A protected key that its password opens and the empty password does not, unless two messages
are found that have one digest. -/
structure IsGuarded (password blob plain : Bytes) : Prop where
  ne_nil : password ≠ []
  form_ne_nil : Utf16.ofText password ≠ []
  opens : unprotect password blob = .ok plain
  bare : ∀ plain', unprotect [] blob = .ok plain' →
    Sha1.IsCollision (message [] plain') (message password plain)

theorem isGuarded_of_ne_nil (hne : password ≠ []) (h : unprotect password blob = .ok plain) :
    IsGuarded password blob plain where
  ne_nil := hne
  form_ne_nil := Utf16.ofText_ne_nil hne
  opens := h
  bare := fun _ hbare => isCollision_of_unprotect_nil (Utf16.ofText_ne_nil hne) h hbare

end KeyProtector

/-! ## Keys in a packed file -/

namespace CommandLine

/-- The arguments of `pack` give keys with some alias a password that comes to nothing. -/
def LeavesOpen (s : Session) (args : List Bytes) (name : Bytes) : Prop :=
  ∃ text, lastAssigned name (valuesOf PackFlag.keyPassword.names args) = some text
    ∧ Password.IsBlank s.environment s.files text

theorem exists_of_mem_right {α β : Type} {R : α → β → Prop} {as : List α} {bs : List β} {b : β}
    (h : List.Forall₂ R as bs) (hb : b ∈ bs) : ∃ a ∈ as, R a b := by
  induction h with
  | nil => exact nomatch hb
  | @cons a b' as bs hfirst _ ih =>
    rcases List.mem_cons.mp hb with rfl | hrest
    · exact ⟨a, List.mem_cons_self, hfirst⟩
    · obtain ⟨a', ha', hR⟩ := ih hrest
      exact ⟨a', List.mem_cons_of_mem _ ha', hR⟩

variable {s : Session} {args : List Bytes} {passwords : Passwords} {c : Contents} {file : Bytes}

/-- A key is left without a password by its own arguments only, as the store has one. -/
theorem IsPacked.forKey_eq_nil_iff (h : IsPacked s args passwords c file)
    (hstore : passwords.store ≠ []) {name : Bytes} (hname : equals ∉ name) :
    passwords.forKey name = [] ↔ LeavesOpen s args name := by
  unfold LeavesOpen
  rw [h.own name hname]
  rcases lastAssigned name (valuesOf PackFlag.keyPassword.names args) with _ | text
  · constructor
    · intro hnil
      exact absurd hnil hstore
    · rintro ⟨_, hnone, -⟩
      exact nomatch hnone
  · simp only [Option.map_some, Option.getD_some, Option.some.injEq, exists_eq_left']
    exact Password.ofText_eq_nil_iff

/-- A key as it stands in a file: open to the empty password where the arguments leave it so, and
guarded by its password elsewhere. -/
def IsOpenOrGuarded (s : Session) (args : List Bytes) (passwords : Passwords) (name blob : Bytes) :
    Prop :=
  ∃ hidden info, Key.protectedContent? blob = some hidden
    ∧ (LeavesOpen s args name ∧ KeyProtector.unprotect [] hidden = .ok info
      ∨ ¬ LeavesOpen s args name
        ∧ KeyProtector.IsGuarded (passwords.forKey name) hidden info)

/-- Each key in a packed file is open or guarded. -/
theorem IsPacked.isOpenOrGuarded (h : IsPacked s args passwords c file)
    (hstore : passwords.store ≠ []) {listing : Listing}
    (hread : Listing.read? (file.take (file.length - 20)) = some listing)
    {name blob : Bytes} {millis : UInt64} {chain : List TypedCertificate}
    (hmem : .key name millis blob chain ∈ listing.entries) :
    IsOpenOrGuarded s args passwords name blob := by
  obtain ⟨stamp, certificates, keys, -, hlisting, hcertificates, hkeys⟩ := h.listing
  obtain rfl := Option.some.inj (hlisting.symm.trans hread)
  rcases List.mem_append.mp hmem with hcertificate | hkey
  · obtain ⟨value, -, hlisted⟩ := exists_of_mem_right hcertificates hcertificate
    obtain ⟨_, _, _, _, _, -, -, -, hentry⟩ := hlisted
    exact nomatch hentry
  · obtain ⟨value, -, hlisted⟩ := exists_of_mem_right hkeys hkey
    obtain ⟨source, _, _, _, hidden, info, _, hnamed, -, -, hframe, hopens, -, -, hentry⟩ := hlisted
    obtain ⟨rfl, -, rfl, -⟩ := ListedEntry.key.inj hentry
    obtain ⟨_, ⟨-, hname, -⟩, -⟩ := hnamed
    have hnil := h.forKey_eq_nil_iff hstore hname
    refine ⟨hidden, info, hframe, ?_⟩
    by_cases hopen : LeavesOpen s args source.name
    · rw [hnil.mpr hopen] at hopens
      exact .inl ⟨hopen, hopens⟩
    · exact .inr ⟨hopen, KeyProtector.isGuarded_of_ne_nil (fun he => hopen (hnil.mp he)) hopens⟩

/-- What a run of `pack` that ends with success has written. -/
theorem exists_isPacked_of_run {args rest : List Bytes} {program : Bytes} {s s' : Session}
    (hargs : withoutGlobalFlags (args.map Bytes.untilNul) = program :: ascii "pack" :: rest)
    (hrun : run args s = (0, s')) :
    ∃ passwords c file, IsPacked s rest passwords c file ∧ passwords.store ≠ []
      ∧ s.files.write ((valuesOf PackFlag.output.names rest).getLastD []) file
          = .ok s'.files := by
  obtain ⟨o, passwords, c, file, hread, hpacks⟩ := exists_of_run_pack hargs hrun
  obtain ⟨hoptions, -, -⟩ := PackOptions.extends_of_read hread
  have hwritten := hpacks.written
  rw [hoptions.output, show PackOptions.initial.output = [] from rfl] at hwritten
  exact ⟨passwords, c, file, hpacks.isPacked hoptions, hpacks.store_ne_nil, hwritten⟩

/-- A run of `pack` that ends with success has written one file, under a password that is not
empty. Each key in it is guarded by a password that is not empty either, except that it is open
where the last value of `--key-password` for its alias leads to the empty password. -/
theorem run_pack_guards_keys {args rest : List Bytes} {program : Bytes} {s s' : Session}
    (hargs : withoutGlobalFlags (args.map Bytes.untilNul) = program :: ascii "pack" :: rest)
    (hrun : run args s = (0, s')) :
    ∃ passwords c file, IsPacked s rest passwords c file
      ∧ s.files.write ((valuesOf PackFlag.output.names rest).getLastD []) file = .ok s'.files
      ∧ (s.files.IsRegularOrNew ((valuesOf PackFlag.output.names rest).getLastD []) →
        s'.files.read ((valuesOf PackFlag.output.names rest).getLastD []) = .ok file)
      ∧ passwords.store ≠ []
      ∧ ∃ listing, Listing.read? (file.take (file.length - 20)) = some listing
        ∧ ∀ name millis blob chain, .key name millis blob chain ∈ listing.entries →
          IsOpenOrGuarded s rest passwords name blob := by
  obtain ⟨passwords, c, file, hpacked, hstore, hwritten⟩ := exists_isPacked_of_run hargs hrun
  obtain ⟨_, _, _, -, hlisting, -⟩ := hpacked.listing
  refine ⟨passwords, c, file, hpacked, hwritten, fun houtput => ?_, hstore, _, hlisting,
    fun _ _ _ _ hmem => hpacked.isOpenOrGuarded hstore hlisting hmem⟩
  obtain ⟨_, -, hfound, -⟩ := FileTree.isWrittenAt_of_write houtput hwritten
  exact hfound

/-- Options that give the key of the sample an empty password. -/
def openOptions : List Bytes := ["-o", "o", "--key", "a=k", "--key-password", "a="].map ascii

/-- A command line with these options. -/
def openArgs : List Bytes := ascii "jks" :: ascii "pack" :: openOptions

theorem withoutGlobalFlags_openArgs : withoutGlobalFlags (openArgs.map Bytes.untilNul)
    = ascii "jks" :: ascii "pack" :: openOptions := by
  decide +kernel

theorem run_openArgs : run openArgs sampleSession = (0, (run openArgs sampleSession).2) :=
  Prod.ext (by decide +kernel) rfl

theorem isRegularOrNew_openOptions : sampleSession.files.IsRegularOrNew
    ((valuesOf PackFlag.output.names openOptions).getLastD []) :=
  ⟨[ascii "o"], by decide +kernel, Or.inl (by decide +kernel)⟩

theorem leavesOpen_openOptions : LeavesOpen sampleSession openOptions (ascii "a") :=
  ⟨[], by decide +kernel, .empty⟩

/-- The sample is packed, with its key left open. -/
theorem run_pack_guards_keys_sample :
    withoutGlobalFlags (openArgs.map Bytes.untilNul) = ascii "jks" :: ascii "pack" :: openOptions
      ∧ LeavesOpen sampleSession openOptions (ascii "a")
      ∧ ∃ s', run openArgs sampleSession = (0, s')
        ∧ ∃ passwords c file, IsPacked sampleSession openOptions passwords c file
          ∧ s'.files.read ((valuesOf PackFlag.output.names openOptions).getLastD []) = .ok file
          ∧ ∃ listing, Listing.read? (file.take (file.length - 20)) = some listing
            ∧ ∀ name millis blob chain, .key name millis blob chain ∈ listing.entries →
              IsOpenOrGuarded sampleSession openOptions passwords name blob := by
  obtain ⟨passwords, c, file, hpacked, -, hread, -, hlisting⟩ :=
    run_pack_guards_keys withoutGlobalFlags_openArgs run_openArgs
  exact ⟨withoutGlobalFlags_openArgs, leavesOpen_openOptions, _, run_openArgs, passwords, c, file,
    hpacked, hread isRegularOrNew_openOptions, hlisting⟩

/-- A key of a packed file may be one that the empty password opens. -/
theorem not_keys_guarded :
    ¬ ∀ (args rest : List Bytes) (program : Bytes) (s s' : Session) (file : Bytes)
      (listing : Listing),
      withoutGlobalFlags (args.map Bytes.untilNul) = program :: ascii "pack" :: rest →
      run args s = (0, s') →
      s'.files.read ((valuesOf PackFlag.output.names rest).getLastD []) = .ok file →
      Listing.read? (file.take (file.length - 20)) = some listing →
      ∀ name millis blob chain hidden, .key name millis blob chain ∈ listing.entries →
        Key.protectedContent? blob = some hidden →
        ∀ info, KeyProtector.unprotect [] hidden ≠ .ok info := by
  intro hall
  obtain ⟨passwords, c, file, hpacked, hstore, hwritten⟩ :=
    exists_isPacked_of_run withoutGlobalFlags_openArgs run_openArgs
  obtain ⟨_, -, hfound, -⟩ := FileTree.isWrittenAt_of_write isRegularOrNew_openOptions hwritten
  obtain ⟨_, certificates, keys, -, hlisting, -, hkeys⟩ := hpacked.listing
  -- the only key is that of the alias
  have hvalues : valuesOf PackFlag.key.names openOptions = [ascii "a=k"] := by decide +kernel
  rw [hvalues] at hkeys
  obtain ⟨entry, _, hlisted, -, rfl⟩ := List.forall₂_cons_left_iff.mp hkeys
  obtain ⟨source, _, _, blob, _, _, _, ⟨paths, ⟨-, hname, hvalue⟩, -⟩, -, -, -, -, -, -, rfl⟩ :=
    hlisted
  have hsplit := Bytes.splitAtMark_append paths hname
  rw [← hvalue] at hsplit
  have halias : ascii "a" = source.name := congrArg Prod.fst hsplit
  have hmem : ∀ (e : ListedEntry) es, e ∈ certificates ++ e :: es :=
    fun _ _ => List.mem_append_cons_self
  obtain ⟨hidden, info, hframe, ⟨-, hopens⟩ | ⟨hclosed, -⟩⟩ :=
    hpacked.isOpenOrGuarded hstore hlisting (hmem _ _)
  · exact hall openArgs openOptions (ascii "jks") sampleSession _ file _ withoutGlobalFlags_openArgs
      run_openArgs hfound hlisting _ _ _ _ _ (hmem _ _) hframe _ hopens
  · exact hclosed (halias ▸ leavesOpen_openOptions)

end CommandLine

end Keystore
