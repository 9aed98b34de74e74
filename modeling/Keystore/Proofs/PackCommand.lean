import Keystore.Proofs.Arguments
import Keystore.Proofs.Command
import Keystore.Proofs.Instant
import Keystore.Proofs.StoreListing

/-!
# A packed file is what the command line asks for

The arguments of `pack` determine a store, value by value: `IsTime` the moment of its
entries, `IsAsked` the entries, `lastAssigned` the passwords of its keys. A run that ends
with success has stored the file of that store (`run_pack_stores`), and what is read back
from the file can be said in terms of the arguments alone: one record for each value, in
order (`IsPacked`).

All of it is about the session in which the run begins. The output may well be one of
the files that were read.
-/

namespace Keystore

open CommandLine Bytes

/-! ## Passwords of keys -/

namespace CommandLine

/-- The text that values `alias=text` assign to an alias: the last of them counts. -/
def lastAssigned (name : Bytes) (values : List Bytes) : Option Bytes :=
  (values.filterMap (Bytes.afterPrefix? (name ++ [equals]))).getLast?

/-- A value assigns a text to its own alias and to no other. -/
theorem afterPrefix?_of_assigns {value name : Bytes} {a : Bytes × Bytes} (h : Assigns value a)
    (hname : equals ∉ name) :
    Bytes.afterPrefix? (name ++ [equals]) value = if a.1 = name then some a.2 else none := by
  obtain ⟨-, hmark, rfl⟩ := h
  by_cases hsame : a.1 = name
  · rw [if_pos hsame, hsame, List.append_cons name equals a.2]
    exact Bytes.afterPrefix?_append _ _
  · rw [if_neg hsame]
    rcases hrest : Bytes.afterPrefix? (name ++ [equals]) (a.1 ++ equals :: a.2) with _ | rest
    · rfl
    · -- two splits at the first mark of one text agree
      have heq := Bytes.eq_append_of_afterPrefix? hrest
      rw [List.append_assoc, List.singleton_append] at heq
      have hsplit := Bytes.splitAtMark_append a.2 hmark
      rw [heq, Bytes.splitAtMark_append rest hname] at hsplit
      exact absurd (Prod.mk.inj hsplit).1.symm hsame

theorem filterMap_afterPrefix? {values : List Bytes} {added : List (Bytes × Bytes)}
    (h : List.Forall₂ Assigns values added) {name : Bytes} (hname : equals ∉ name) :
    values.filterMap (Bytes.afterPrefix? (name ++ [equals]))
      = added.filterMap fun a => if a.1 = name then some a.2 else none := by
  induction h with
  | nil => rfl
  | cons hfirst _ ih =>
    rw [List.filterMap_cons, List.filterMap_cons, afterPrefix?_of_assigns hfirst hname, ih]

end CommandLine

theorem find?_owner (own : List (Bytes × Bytes)) (name : Bytes) :
    (own.find? fun (owner, _) => owner == name).map Prod.snd
      = own.findSome? fun a => if a.1 = name then some a.2 else none := by
  induction own with
  | nil => rfl
  | cons a own ih =>
    rw [List.find?_cons, List.findSome?_cons]
    by_cases h : a.1 = name
    · simp only [h, beq_self_eq_true, if_true, Option.map_some]
    · simp only [beq_false_of_ne h, if_neg h]
      exact ih

/-- The password of a key is the last that its alias owns, or that of the store. -/
theorem Passwords.forKey_eq (p : Passwords) (name : Bytes) :
    p.forKey name
      = ((p.own.filterMap fun a => if a.1 = name then some a.2 else none).getLast?).getD
        p.store := by
  unfold forKey
  rw [find?_owner, ← List.head?_filterMap, List.filterMap_reverse, List.head?_reverse]

/-- Passwords that are looked up value by value are those of the last values. -/
theorem Passwords.forKey_of_assigns {values : List Bytes} {added : List (Bytes × Bytes)}
    (h : List.Forall₂ Assigns values added) {name : Bytes} (hname : equals ∉ name)
    (look : Bytes → Bytes) {p : Passwords} (hown : p.own = added.map fun a => (a.1, look a.2)) :
    p.forKey name = ((lastAssigned name values).map look).getD p.store := by
  rw [Passwords.forKey_eq, hown, List.filterMap_map]
  unfold lastAssigned
  rw [filterMap_afterPrefix? h hname, ← List.getLast?_map, List.map_filterMap]
  congr 3
  funext a
  show (if a.1 = name then some (look a.2) else none) = _
  by_cases hsame : a.1 = name
  · rw [if_pos hsame, if_pos hsame, Option.map_some]
  · rw [if_neg hsame, if_neg hsame, Option.map_none]

/-! ## What the arguments ask for -/

namespace CommandLine

/-- The moment of all entries: the last that is given, if there is one. -/
inductive IsTime (args : List Bytes) : Instant → Prop
  | unset (hnone : valuesOf PackFlag.timestamp.names args = []) : IsTime args .unset
  | given {front : List Bytes} {text : Bytes} {t : Instant}
    (hlast : valuesOf PackFlag.timestamp.names args = front ++ [text])
    (hparse : Instant.parse text = .ok t) : IsTime args t

/-- The milliseconds by which all records are stamped: the number that is given last, as
long as its nanoseconds fit 64 bits, or else the current time. -/
inductive IsStamp (now : Instant) (args : List Bytes) : UInt64 → Prop
  | clock (hnone : valuesOf PackFlag.timestamp.names args = []) :
    IsStamp now args now.millis.toUInt64
  | given {front : List Bytes} {text : Bytes} {ms : Nat} {stamp : UInt64}
    (hlast : valuesOf PackFlag.timestamp.names args = front ++ [text])
    (hnumber : Instant.leadingNumber? text = some ((ms : Int), [])) (hpos : 0 < ms)
    (hstamp : ms ≤ 9223372036854 → stamp.toNat = ms) : IsStamp now args stamp

/-- Entries as the arguments ask for them: a certificate for each `--cert` and a key for
each `--key`, in order, loaded from the files that the values name. -/
structure IsAsked (files : FileTree) (args : List Bytes) (time : Instant) (c : Contents) :
    Prop where
  certificates : List.Forall₂
    (fun value e => ∃ a, Assigns value a ∧ CertificateEntry.IsLoaded files time a.1 a.2 e)
    (valuesOf PackFlag.certificate.names args) c.certificates
  keys : List.Forall₂
    (fun value e => ∃ source, KeySource.IsNamed value source
      ∧ KeyEntry.IsLoaded files time source e)
    (valuesOf PackFlag.key.names args) c.keys

/-- A certificate's record as a value of `--cert` asks for it. -/
def CertificateIsListed (files : FileTree) (stamp : UInt64) (value : Bytes)
    (entry : ListedEntry) : Prop :=
  ∃ name path data der rest, Assigns value (name, path) ∧ files.read path = .ok data
    ∧ Bundle.certificates data = der :: rest
    ∧ entry = .certificate name stamp ⟨Bytes.ascii "X.509", der⟩

/-- A key's record as a value of `--key` asks for it: the key of its file, hidden under
the password for its alias, and the certificates of the chain's file, if that is named. -/
def KeyIsListed (files : FileTree) (password : Bytes → Bytes) (stamp : UInt64) (value : Bytes)
    (entry : ListedEntry) : Prop :=
  ∃ source data secret blob hidden info chain, KeySource.IsNamed value source
    ∧ files.read source.path = .ok data ∧ Bundle.key? data = some ⟨.rsa, some secret⟩
    ∧ Key.protectedContent? blob = some hidden
    ∧ KeyProtector.unprotect (password source.name) hidden = .ok info
    ∧ Key.privateContent? info = some secret
    ∧ (source.chain = [] ∧ chain = []
      ∨ source.chain ≠ [] ∧ chain ≠ []
        ∧ ∃ file, files.read source.chain = .ok file ∧ chain = Bundle.certificates file)
    ∧ entry = .key source.name stamp blob (chain.map fun der => ⟨Bytes.ascii "X.509", der⟩)

/-- A file is what the arguments of `pack` ask for in a session. -/
structure IsPacked (s : Session) (args : List Bytes) (passwords : Passwords) (c : Contents)
    (file : Bytes) : Prop where
  store : passwords.store = Password.ofText s.environment s.files
    (storeSource s.environment ((valuesOf PackFlag.password.names args).getLastD []))
  own : ∀ name, equals ∉ name → passwords.forKey name
    = ((lastAssigned name (valuesOf PackFlag.keyPassword.names args)).map
        (Password.ofText s.environment s.files)).getD passwords.store
  contents : ∃ time, IsTime args time ∧ IsAsked s.files args time c
  made : ∃ used, (c.toFile passwords).run.run s.supply = (.ok file, used)
  listing : ∃ stamp certificates keys, IsStamp s.now args stamp
    ∧ Listing.read? (file.take (file.length - 20)) = some
      { magic := 0xFEEDFEED
        version := 2
        count := UInt32.ofNat (certificates.length + keys.length)
        entries := certificates ++ keys }
    ∧ List.Forall₂ (CertificateIsListed s.files stamp)
        (valuesOf PackFlag.certificate.names args) certificates
    ∧ List.Forall₂ (KeyIsListed s.files passwords.forKey stamp)
        (valuesOf PackFlag.key.names args) keys
  trailer : file.drop (file.length - 20)
    = Trailer.make passwords.store (file.take (file.length - 20))

/-! ## From values to records -/

/-- Two relations along lists that share one compose. -/
theorem forall₂_comp {α β γ : Type} {R : α → β → Prop} {S : β → γ → Prop} {T : α → γ → Prop}
    (h : ∀ a b c, R a b → S b c → T a c) {as : List α} {bs : List β} {cs : List γ}
    (hR : List.Forall₂ R as bs) (hS : List.Forall₂ S bs cs) : List.Forall₂ T as cs := by
  induction hR generalizing cs with
  | nil =>
    cases hS
    exact .nil
  | cons hfirst _ ih =>
    cases hS with
    | cons hsecond hrest => exact .cons (h _ _ _ hfirst hsecond) (ih hrest)

/-- The moment that the options hold is the one that the arguments ask for. -/
theorem isTime_of_extends {o : PackOptions} {args : List Bytes}
    (h : PackOptions.initial.Extends args o) : IsTime args (o.time.getD .unset) := by
  obtain ⟨times, htime, htimes⟩ := h.time
  rw [htime]
  rcases List.eq_nil_or_concat times with rfl | ⟨front, t, rfl⟩
  · exact .unset (List.forall₂_nil_right_iff.mp htimes)
  · -- the last moment goes with the last value
    have hlast := List.rel_reverse htimes
    rw [List.concat_eq_append, List.reverse_append] at hlast
    obtain ⟨text, rest, hparse, -, hvalues⟩ := List.forall₂_cons_right_iff.mp hlast
    have hsplit : valuesOf PackFlag.timestamp.names args = rest.reverse ++ [text] := by
      rw [← List.reverse_reverse (valuesOf _ args), hvalues, List.reverse_cons]
    have hmoment : (((front.concat t).map some).getLastD PackOptions.initial.time).getD .unset
        = t := by
      rw [List.concat_eq_append, List.map_append]
      simp
    rw [hmoment]
    exact .given hsplit hparse

/-- The moment that the arguments ask for gives their stamp. -/
theorem IsTime.isStamp {args : List Bytes} {t : Instant} (h : IsTime args t) (now : Instant) :
    IsStamp now args (t.stamp now) := by
  cases h with
  | unset hnone => exact .clock hnone
  | given hlast hparse =>
    obtain ⟨ms, hnumber, hpos, rfl⟩ := Instant.exists_of_parse hparse
    refine .given hlast hnumber hpos ?_
    intro hms
    unfold Instant.stamp Instant.or
    rw [if_neg (Instant.ofMillis_ne_unset hpos hms)]
    exact Instant.toNat_millis_ofMillis hms

/-- Options that were read, and entries that were loaded by them, are what the arguments
ask for. -/
theorem isAsked_of_extends {files : FileTree} {o : PackOptions} {args : List Bytes}
    {c : Contents} (h : PackOptions.initial.Extends args o)
    (hcertificates : List.Forall₂
      (fun a e => CertificateEntry.IsLoaded files (o.time.getD .unset) a.1 a.2 e)
      o.certificates c.certificates)
    (hkeys : List.Forall₂ (KeyEntry.IsLoaded files (o.time.getD .unset)) o.keys c.keys) :
    IsAsked files args (o.time.getD .unset) c := by
  obtain ⟨added, hadded, hassigned⟩ := h.certificates
  obtain ⟨sources, hsources, hnamed⟩ := h.keys
  rw [show PackOptions.initial.certificates = [] from rfl, List.nil_append] at hadded
  rw [show PackOptions.initial.keys = [] from rfl, List.nil_append] at hsources
  rw [hadded] at hcertificates
  rw [hsources] at hkeys
  constructor
  · exact forall₂_comp (fun _ a _ ha he => ⟨a, ha, he⟩) hassigned hcertificates
  · exact forall₂_comp (fun _ source _ hsource he => ⟨source, hsource, he⟩) hnamed hkeys

/-- The record of a certificate that was asked for. -/
theorem certificateIsListed {files : FileTree} {time now : Instant} {value : Bytes}
    {e : CertificateEntry}
    (h : ∃ a, Assigns value a ∧ CertificateEntry.IsLoaded files time a.1 a.2 e) :
    CertificateIsListed files (time.stamp now) value (e.listed now) := by
  obtain ⟨⟨name, path⟩, hvalue, hname, htime, data, rest, hdata, hder⟩ := h
  refine ⟨name, path, data, e.der, rest, hvalue, hdata, hder, ?_⟩
  unfold CertificateEntry.listed
  rw [hname, htime]
  rfl

/-- The record of a key that was asked for. -/
theorem keyIsListed {files : FileTree} {time now : Instant} {passwords : Passwords}
    {value : Bytes} {e : KeyEntry} {entry : ListedEntry}
    (h : ∃ source, KeySource.IsNamed value source ∧ KeyEntry.IsLoaded files time source e)
    (hlisted : e.IsListed passwords now entry) :
    KeyIsListed files passwords.forKey (time.stamp now) value entry := by
  obtain ⟨source, hvalue, hname, htime, ⟨data, key, hdata, hfound, hentry⟩, hchain⟩ := h
  cases hlisted with
  | intro hframe hpassword hinfo hkey =>
    obtain rfl := Option.some.inj (hentry.symm.trans hkey)
    rw [hname] at hpassword
    refine ⟨source, data, _, _, _, _, e.chain, hvalue, hdata, hfound, hframe, hpassword, hinfo,
      hchain, ?_⟩
    rw [hname, htime]
    rfl

/-! ## The command -/

/-- What `pack` writes in a session is what its arguments ask for there. -/
theorem Packs.isPacked {s s' : Session} {o : PackOptions} {args : List Bytes}
    {passwords : Passwords} {c : Contents} {file : Bytes}
    (hoptions : PackOptions.initial.Extends args o) (h : Packs s o passwords c file s') :
    IsPacked s args passwords c file := by
  obtain ⟨used, hmade, -⟩ := h.made
  have hasked := isAsked_of_extends hoptions h.certificates h.keys
  obtain ⟨added, hadded, hassigned⟩ := hoptions.keyPasswords
  obtain ⟨hstorable, hrandom, rfl, -⟩ := Contents.run_toFile_eq_ok.mp hmade
  obtain ⟨keys, hread, hkeys⟩ := Contents.exists_listing passwords s.now hstorable hrandom
  have hcount : c.size = (c.certificates.map (CertificateEntry.listed s.now)).length
      + keys.length := by
    rw [List.length_map, ← hkeys.length_eq]
    rfl
  refine {
    store := ?_
    own := ?_
    contents := ⟨_, isTime_of_extends hoptions, hasked⟩
    made := ⟨used, hmade⟩
    listing := ?_
    trailer := ?_ }
  · rw [h.store, hoptions.password]
    rfl
  · intro name hname
    apply Passwords.forKey_of_assigns hassigned hname
    rw [h.own, hadded]
    rfl
  · refine ⟨_, c.certificates.map (CertificateEntry.listed s.now), keys,
      (isTime_of_extends hoptions).isStamp s.now, ?_, ?_, ?_⟩
    · -- what is listed comes from the store, and the store from the arguments
      rw [← hcount]
      exact hread
    · rw [List.forall₂_map_right_iff]
      exact hasked.certificates.imp fun _ _ he => certificateIsListed he
    · refine forall₂_comp ?_ hasked.keys hkeys
      intro value e entry he hlisted
      exact keyIsListed he hlisted
  · rw [Contents.take_layout, Contents.drop_layout]

/-- A command line of `pack` that ends with success, and whose output is a regular file or
a new one, leaves there the file that its arguments ask for. -/
theorem run_pack_stores {args rest : List Bytes} {program : Bytes} {s s' : Session}
    (hargs : withoutGlobalFlags (args.map Bytes.untilNul) = program :: ascii "pack" :: rest)
    (hrun : run args s = (0, s'))
    (houtput : s.files.IsRegularOrNew ((valuesOf PackFlag.output.names rest).getLastD [])) :
    ∃ passwords c file, IsPacked s rest passwords c file
      ∧ s'.files.read ((valuesOf PackFlag.output.names rest).getLastD []) = .ok file := by
  obtain ⟨o, passwords, c, file, hread, hpacks⟩ := exists_of_run_pack hargs hrun
  obtain ⟨hoptions, -, -⟩ := PackOptions.extends_of_read hread
  refine ⟨passwords, c, file, hpacks.isPacked hoptions, ?_⟩
  obtain ⟨l, -, hwrite, hfound⟩ := FileTree.write_of_regularOrNew houtput file
  have hwritten := hpacks.written
  rw [hoptions.output, show PackOptions.initial.output = [] from rfl, hwrite] at hwritten
  rw [← Except.ok.inj hwritten]
  exact hfound

/-- A session with a key in a file `k` and a certificate in a file `c`. -/
def sampleSession : Session where
  environment := ⟨[ascii "JKSPACK_STORE_PASSWORD=changeit"]⟩
  terminals := ⟨false, false⟩
  files := ⟨[
    ([ascii "k"], .file [0x30, 0x1B, 2, 1, 0, 2, 1, 1, 2, 1, 1, 2, 1, 1, 2, 1, 1, 2, 1, 1, 2, 1, 1,
      2, 1, 1, 2, 1, 1]),
    ([ascii "c"], .file [0x30, 0x26, 0x30, 0x1C, 2, 1, 1, 0x30, 3, 6, 1, 0x2A, 0x30, 0, 0x30, 4,
      0x17, 0, 0x17, 0, 0x30, 0, 0x30, 8, 0x30, 3, 6, 1, 0x2A, 3, 1, 0, 0x30, 3, 6, 1, 0x2A,
      3, 1, 0])], []⟩
  now := ⟨5000000⟩
  random := List.replicate 20 7
  explains := true
  console := .fresh
  out := []
  err := []

/-- Options for the sample: two passwords for the key, and its own file as the output. -/
def sampleOptions : List Bytes :=
  ["-o", "k", "--cert", "b=c", "--key", "a=k:c", "--key-password", "a=x", "--key-password", "a=y",
    "--timestamp", "7"].map ascii

/-- A command line with these options, and a global flag in front of the command. -/
def sampleArgs : List Bytes := ascii "jks" :: ascii "-v" :: ascii "pack" :: sampleOptions

/-- Packing at work on the sample. -/
theorem run_pack_stores_sample :
    withoutGlobalFlags (sampleArgs.map Bytes.untilNul)
        = ascii "jks" :: ascii "pack" :: sampleOptions
      ∧ ∃ s', run sampleArgs sampleSession = (0, s')
        ∧ sampleSession.files.IsRegularOrNew
            ((valuesOf PackFlag.output.names sampleOptions).getLastD [])
        ∧ ∃ passwords c file, IsPacked sampleSession sampleOptions passwords c file
          ∧ s'.files.read ((valuesOf PackFlag.output.names sampleOptions).getLastD [])
              = .ok file := by
  have hargs : withoutGlobalFlags (sampleArgs.map Bytes.untilNul)
      = ascii "jks" :: ascii "pack" :: sampleOptions := by
    decide +kernel
  have hstatus : (run sampleArgs sampleSession).1 = 0 := by
    decide +kernel
  have hrun : run sampleArgs sampleSession = (0, (run sampleArgs sampleSession).2) :=
    Prod.ext hstatus rfl
  have houtput : sampleSession.files.IsRegularOrNew
      ((valuesOf PackFlag.output.names sampleOptions).getLastD []) :=
    ⟨[ascii "k"], by decide +kernel, Or.inr ⟨_, rfl⟩⟩
  exact ⟨hargs, _, hrun, houtput, run_pack_stores hargs hrun houtput⟩

end CommandLine

end Keystore
