import Keystore.Proofs.Arguments
import Mathlib.Data.List.Forall2

/-!
# The grammar of the options of `pack`

The options of `pack` are a row of pairs of a flag and a value (`IsRow`). A row can be read when
every value suits its option, the last output is not empty and there is an entry (`IsReadable`);
the options are then those that `PackOptions.Holds` describes, which looks at the values of each
kind alone. So neither the outcome nor the options depend on how pairs of different kinds are
mixed: exchanging two neighbours of different kinds changes nothing (`PackOptions.read_grammar`).
-/

namespace Keystore.CommandLine

open Bytes (ascii)

/-! ## Rows -/

/-- Arguments that are pairs of a flag, by any name of the option, and a value. The value may be
anything, also the name of an option. -/
inductive IsRow : List Bytes → List (PackFlag × Bytes) → Prop
  | nil : IsRow [] []
  | cons {option : PackFlag} {flag : Bytes} (value : Bytes) {rest : List Bytes}
    {pairs : List (PackFlag × Bytes)} (hflag : flag ∈ option.names) (hrest : IsRow rest pairs) :
    IsRow (flag :: value :: rest) ((option, value) :: pairs)

/-- The values of one option in a row, in order. -/
def given (option : PackFlag) (pairs : List (PackFlag × Bytes)) : List Bytes :=
  (pairs.filter fun p => p.1 = option).map Prod.snd

/-- The values an option can have: an alias and what belongs to it, a time, or anything. -/
def PackFlag.Takes : PackFlag → Bytes → Prop
  | certificate, value | key, value | keyPassword, value => ∃ a, Assigns value a
  | timestamp, value => ∃ t, Instant.parse value = .ok t
  | password, _ | output, _ => True

/-- What a row needs so that it can be read. -/
structure IsReadable (pairs : List (PackFlag × Bytes)) : Prop where
  values : ∀ p ∈ pairs, p.1.Takes p.2
  output : ∃ path, (given .output pairs).getLast? = some path ∧ path ≠ []
  entry : ∃ p ∈ pairs, p.1 = .certificate ∨ p.1 = .key

/-- The options that a row stands for. -/
structure PackOptions.Holds (o : PackOptions) (pairs : List (PackFlag × Bytes)) : Prop where
  output : o.output = (given .output pairs).getLastD []
  password : o.password = (given .password pairs).getLastD []
  certificates : List.Forall₂ Assigns (given .certificate pairs) o.certificates
  keys : List.Forall₂ KeySource.IsNamed (given .key pairs) o.keys
  keyPasswords : List.Forall₂ Assigns (given .keyPassword pairs) o.keyPasswords
  time : o.time = (given .timestamp pairs).getLast?.bind fun text => (Instant.parse text).toOption

theorem given_cons (option other : PackFlag) (value : Bytes) (pairs : List (PackFlag × Bytes)) :
    given other ((option, value) :: pairs)
      = if option = other then value :: given other pairs else given other pairs := by
  unfold given
  by_cases h : option = other
  · rw [if_pos h, List.filter_cons_of_pos (by simpa using h)]
    rfl
  · rw [if_neg h, List.filter_cons_of_neg (by simpa using h)]

/-- An option has values exactly if there are pairs of its kind. -/
theorem given_eq_nil_iff {option : PackFlag} {pairs : List (PackFlag × Bytes)} :
    given option pairs = [] ↔ ∀ p ∈ pairs, p.1 ≠ option := by
  unfold given
  simp

/-- The first flag says of which option the first pair is. -/
theorem isRow_cons_iff {option : PackFlag} {flag : Bytes} (hflag : flag ∈ option.names)
    {value : Bytes} {rest : List Bytes} {pairs : List (PackFlag × Bytes)} :
    IsRow (flag :: value :: rest) pairs
      ↔ ∃ others, pairs = (option, value) :: others ∧ IsRow rest others := by
  constructor
  · intro h
    cases h with
    | @cons other _ _ _ others hmem hrest =>
      obtain rfl := Option.some.inj
        ((PackFlag.ofArg?_of_mem hmem).symm.trans (PackFlag.ofArg?_of_mem hflag))
      exact ⟨others, rfl, hrest⟩
  · rintro ⟨others, rfl, hrest⟩
    exact .cons value hflag hrest

/-- The values of an option are found by its names. -/
theorem IsRow.valuesOf {args : List Bytes} {pairs : List (PackFlag × Bytes)}
    (h : IsRow args pairs) (option : PackFlag) :
    valuesOf option.names args = given option pairs := by
  induction h with
  | nil => rfl
  | @cons other flag value rest pairs hflag _ ih =>
    rw [valuesOf_cons (PackFlag.ofArg?_of_mem hflag), given_cons, ih]

/-! ## Reading a row -/

/-- A pair can be added to some options exactly if the option takes the value. -/
theorem PackOptions.exists_set_iff {o : PackOptions} {option : PackFlag} {flag value : Bytes} :
    (∃ o', o.set option flag value = .ok o') ↔ option.Takes value := by
  have hassigns : ∀ f : Bytes × Bytes → PackOptions,
      (∃ o', (assignment flag value).map f = .ok o') ↔ ∃ a, Assigns value a := by
    intro f
    constructor
    · rintro ⟨o', h⟩
      obtain ⟨a, ha, -⟩ := exists_of_map_assignment h
      exact ⟨a, ha⟩
    · rintro ⟨a, ha⟩
      exact ⟨f a, by rw [assignment_eq_ok.mpr ha]; rfl⟩
  cases option with
  | password => exact ⟨fun _ => trivial, fun _ => ⟨_, rfl⟩⟩
  | output => exact ⟨fun _ => trivial, fun _ => ⟨_, rfl⟩⟩
  | certificate => exact hassigns _
  | key => exact hassigns _
  | keyPassword => exact hassigns _
  | timestamp =>
    show (∃ o', o.set .timestamp flag value = .ok o') ↔ ∃ t, Instant.parse value = .ok t
    unfold PackOptions.set
    rcases Instant.parse value with f | t <;> simp

/-- Pairs are read exactly from rows whose values suit their options. -/
theorem PackOptions.exists_readPairs_iff {o : PackOptions} {args : List Bytes} :
    (∃ o', readPairs o args = .ok o')
      ↔ ∃ pairs, IsRow args pairs ∧ ∀ p ∈ pairs, p.1.Takes p.2 := by
  induction o, args using readPairs.induct with
  | case1 o => exact ⟨fun _ => ⟨[], .nil, by simp⟩, fun _ => ⟨o, rfl⟩⟩
  | case2 o flag rest hflag =>
    constructor
    · rintro ⟨o', h⟩
      rw [readPairs, hflag] at h
      cases h
    · rintro ⟨pairs, hrow, -⟩
      cases hrow with
      | cons _ hmem _ =>
        rw [PackFlag.ofArg?_of_mem hmem] at hflag
        cases hflag
  | case3 o flag option hflag =>
    constructor
    · rintro ⟨o', h⟩
      rw [readPairs, hflag] at h
      cases h
    · rintro ⟨-, ⟨⟩, -⟩
  | case4 o flag option hflag value rest o₁ hset ih =>
    have hstep : readPairs o (flag :: value :: rest) = readPairs o₁ rest := by
      simp only [readPairs, hflag, hset]
    rw [hstep, ih]
    constructor
    · rintro ⟨pairs, hrow, hvalues⟩
      refine ⟨(option, value) :: pairs, .cons value (PackFlag.mem_names hflag) hrow, ?_⟩
      exact List.forall_mem_cons.mpr ⟨exists_set_iff.mp ⟨o₁, hset⟩, hvalues⟩
    · rintro ⟨pairs, hrow, hvalues⟩
      obtain ⟨others, rfl, hothers⟩ := (isRow_cons_iff (PackFlag.mem_names hflag)).mp hrow
      exact ⟨others, hothers, (List.forall_mem_cons.mp hvalues).2⟩
  | case5 o flag option hflag value rest f hset =>
    constructor
    · rintro ⟨o', h⟩
      simp only [readPairs, hflag, hset] at h
      cases h
    · rintro ⟨pairs, hrow, hvalues⟩
      obtain ⟨others, rfl, -⟩ := (isRow_cons_iff (PackFlag.mem_names hflag)).mp hrow
      obtain ⟨o₁, ho₁⟩ := exists_set_iff.mpr (List.forall_mem_cons.mp hvalues).1
      rw [hset] at ho₁
      cases ho₁

/-- The last of some times is the one that is read from the last text. -/
theorem getLastD_of_parsed {texts : List Bytes} {times : List Instant}
    (h : List.Forall₂ (fun text t => Instant.parse text = .ok t) texts times) :
    (times.map some).getLastD none
      = texts.getLast?.bind fun text => (Instant.parse text).toOption := by
  rw [List.getLastD_eq_getLast?]
  induction h with
  | nil => rfl
  | @cons text t texts times ht hrest ih =>
    cases hrest with
    | nil => simp [ht, Except.toOption]
    | cons _ _ => simpa using ih

/-- What a row makes of no options is what it stands for. -/
theorem PackOptions.Extends.holds {o : PackOptions} {args : List Bytes}
    {pairs : List (PackFlag × Bytes)} (h : initial.Extends args o) (hrow : IsRow args pairs) :
    o.Holds pairs := by
  obtain ⟨houtput, hpassword, ⟨certificates, hcertificates, hassigned⟩, ⟨keys, hkeys, hnamed⟩,
    ⟨keyPasswords, hkeyPasswords, hsecrets⟩, ⟨times, htime, hparsed⟩⟩ := h
  rw [hrow.valuesOf] at houtput hpassword hassigned hnamed hsecrets hparsed
  obtain rfl := hcertificates
  obtain rfl := hkeys
  obtain rfl := hkeyPasswords
  exact ⟨houtput, hpassword, hassigned, hnamed, hsecrets, htime.trans (getLastD_of_parsed hparsed)⟩

/-- The options of a row name an output and an entry when the row does. -/
theorem PackOptions.Holds.isReadable_iff {o : PackOptions} {pairs : List (PackFlag × Bytes)}
    (h : o.Holds pairs) (hvalues : ∀ p ∈ pairs, p.1.Takes p.2) :
    IsReadable pairs ↔ o.output ≠ [] ∧ ¬ (o.certificates = [] ∧ o.keys = []) := by
  have houtput : (∃ path, (given .output pairs).getLast? = some path ∧ path ≠ [])
      ↔ o.output ≠ [] := by
    rw [h.output, List.getLastD_eq_getLast?]
    rcases (given .output pairs).getLast? with _ | path <;> simp
  have hentry : (∃ p ∈ pairs, p.1 = .certificate ∨ p.1 = .key)
      ↔ ¬ (o.certificates = [] ∧ o.keys = []) := by
    have hcertificates : o.certificates = [] ↔ given .certificate pairs = [] := by
      rw [← List.length_eq_zero_iff, ← h.certificates.length_eq, List.length_eq_zero_iff]
    have hkeys : o.keys = [] ↔ given .key pairs = [] := by
      rw [← List.length_eq_zero_iff, ← h.keys.length_eq, List.length_eq_zero_iff]
    rw [hcertificates, hkeys, given_eq_nil_iff, given_eq_nil_iff, ← forall₂_and]
    push Not
    simp only [← or_iff_not_imp_left, ne_eq]
  constructor
  · intro hreadable
    exact ⟨houtput.mp hreadable.output, hentry.mp hreadable.entry⟩
  · rintro ⟨hpath, hentries⟩
    exact ⟨hvalues, houtput.mpr hpath, hentry.mpr hentries⟩

/-! ## One row, one set of options -/

theorem assigns_rightUnique : Relator.RightUnique Assigns := by
  intro value a b ha hb
  have h : assignment [] value = .ok a := assignment_eq_ok.mpr ha
  rw [assignment_eq_ok.mpr hb] at h
  exact (Except.ok.inj h).symm

theorem KeySource.isNamed_rightUnique : Relator.RightUnique KeySource.IsNamed := by
  -- the paths come from the value, and a key is what its paths are taken apart into
  have hofPaths : ∀ {value : Bytes} {k : KeySource}, k.IsNamed value →
      ∃ paths, Assigns value (k.name, paths) ∧ k = ofPaths k.name paths := by
    rintro value ⟨name, path, chain⟩ ⟨paths, hassigns, hcolon, ⟨rfl, rfl⟩ | rfl⟩
    · exact ⟨_, hassigns, by rw [ofPaths, Bytes.splitAtMark_of_notMem hcolon]; rfl⟩
    · exact ⟨_, hassigns, by rw [ofPaths, Bytes.splitAtMark_append chain hcolon]; rfl⟩
  intro value k l hk hl
  obtain ⟨kpaths, hkassigns, hk⟩ := hofPaths hk
  obtain ⟨lpaths, hlassigns, hl⟩ := hofPaths hl
  obtain ⟨hname, rfl⟩ := Prod.mk.inj (assigns_rightUnique hkassigns hlassigns)
  rw [hk, hl, hname]

/-- A row stands for one set of options. -/
theorem PackOptions.Holds.unique {o o' : PackOptions} {pairs : List (PackFlag × Bytes)}
    (h : o.Holds pairs) (h' : o'.Holds pairs) : o = o' := by
  obtain ⟨output, password, certificates, keys, keyPasswords, time⟩ := o
  obtain ⟨houtput, hpassword, hcertificates, hkeys, hkeyPasswords, htime⟩ := h
  obtain rfl := houtput.trans h'.output.symm
  obtain rfl := hpassword.trans h'.password.symm
  obtain rfl := assigns_rightUnique.forall₂ hcertificates h'.certificates
  obtain rfl := KeySource.isNamed_rightUnique.forall₂ hkeys h'.keys
  obtain rfl := assigns_rightUnique.forall₂ hkeyPasswords h'.keyPasswords
  obtain rfl := htime.trans h'.time.symm
  rfl

theorem PackOptions.exists_read_of_isReadable {args : List Bytes}
    {pairs : List (PackFlag × Bytes)} (hrow : IsRow args pairs) (h : IsReadable pairs) :
    ∃ o, read args = .ok o := by
  obtain ⟨o, hread⟩ := (exists_readPairs_iff (o := initial)).mpr ⟨pairs, hrow, h.values⟩
  have hholds := (extends_of_readPairs hread).holds hrow
  obtain ⟨houtput, hentries⟩ := (hholds.isReadable_iff h.values).mp h
  refine ⟨o, ?_⟩
  simp only [read, hread, if_neg houtput, if_neg hentries]

/-- The options that are read are those of a readable row. -/
theorem PackOptions.read_eq_ok_iff {o : PackOptions} {args : List Bytes} :
    read args = .ok o ↔ ∃ pairs, IsRow args pairs ∧ IsReadable pairs ∧ o.Holds pairs := by
  constructor
  · intro h
    obtain ⟨hextends, houtput, hentries⟩ := extends_of_read h
    have hpairs : ∃ o', readPairs initial args = .ok o' := by
      rcases hread : readPairs initial args with f | o'
      · rw [read, hread] at h
        exact nomatch h
      · exact ⟨o', rfl⟩
    obtain ⟨pairs, hrow, hvalues⟩ := exists_readPairs_iff.mp hpairs
    have hholds := hextends.holds hrow
    exact ⟨pairs, hrow, (hholds.isReadable_iff hvalues).mpr ⟨houtput, hentries⟩, hholds⟩
  · rintro ⟨pairs, hrow, hreadable, hholds⟩
    obtain ⟨o', hread⟩ := exists_read_of_isReadable hrow hreadable
    obtain ⟨hextends, -, -⟩ := extends_of_read hread
    rw [hread, (hextends.holds hrow).unique hholds]

/-! ## Exchanging neighbours -/

/-- Two lists of arguments that differ in the order of two neighbouring pairs of different
options. Whatever stands in front of them are pairs, too. -/
inductive Exchange : List Bytes → List Bytes → Prop
  | here {a b : PackFlag} {flag flag' : Bytes} (value value' : Bytes) (rest : List Bytes)
    (hflag : flag ∈ a.names) (hflag' : flag' ∈ b.names) (hdifferent : a ≠ b) :
    Exchange (flag :: value :: flag' :: value' :: rest) (flag' :: value' :: flag :: value :: rest)
  | later (flag value : Bytes) {args args' : List Bytes} (h : Exchange args args') :
    Exchange (flag :: value :: args) (flag :: value :: args')

theorem Exchange.symm {args args' : List Bytes} (h : Exchange args args') :
    Exchange args' args := by
  induction h with
  | here value value' rest hflag hflag' hdifferent =>
    exact .here value' value rest hflag' hflag hdifferent.symm
  | later flag value _ ih => exact .later flag value ih

/-- The values of each option stay the same, and in order. -/
theorem Exchange.isRow {args args' : List Bytes} {pairs : List (PackFlag × Bytes)}
    (h : Exchange args args') (hrow : IsRow args pairs) :
    ∃ pairs', IsRow args' pairs' ∧ pairs.Perm pairs'
      ∧ ∀ option, given option pairs' = given option pairs := by
  induction h generalizing pairs with
  | @here a b flag flag' value value' rest hflag hflag' hdifferent =>
    obtain ⟨_, rfl, hsecond⟩ := (isRow_cons_iff hflag).mp hrow
    obtain ⟨pairs, rfl, hrest⟩ := (isRow_cons_iff hflag').mp hsecond
    refine ⟨(b, value') :: (a, value) :: pairs, .cons value' hflag' (.cons value hflag hrest),
      List.Perm.swap _ _ _, ?_⟩
    intro option
    simp only [given_cons]
    by_cases ha : a = option
    · have hb : b ≠ option := fun hb => hdifferent (ha.trans hb.symm)
      simp only [if_pos ha, if_neg hb]
    · simp only [if_neg ha]
  | later flag value _ ih =>
    cases hrow with
    | @cons option _ _ _ pairs hmem hrow =>
    obtain ⟨pairs', hrow', hperm, hgiven⟩ := ih hrow
    refine ⟨(option, value) :: pairs', .cons value hmem hrow', hperm.cons _, ?_⟩
    intro other
    rw [given_cons, given_cons, hgiven]

theorem PackOptions.read_of_exchange {args args' : List Bytes} {o : PackOptions}
    (h : Exchange args args') (hread : read args = .ok o) : read args' = .ok o := by
  obtain ⟨pairs, hrow, hreadable, hholds⟩ := read_eq_ok_iff.mp hread
  obtain ⟨pairs', hrow', hperm, hgiven⟩ := h.isRow hrow
  refine read_eq_ok_iff.mpr ⟨pairs', hrow', ⟨?_, ?_, ?_⟩, ⟨?_, ?_, ?_, ?_, ?_, ?_⟩⟩
  · intro p hp
    exact hreadable.values p (hperm.mem_iff.mpr hp)
  · rw [hgiven]
    exact hreadable.output
  · obtain ⟨p, hp, hentry⟩ := hreadable.entry
    exact ⟨p, hperm.mem_iff.mp hp, hentry⟩
  all_goals rw [hgiven]
  exacts [hholds.output, hholds.password, hholds.certificates, hholds.keys, hholds.keyPasswords,
    hholds.time]

/-- Arguments of `pack` can be read exactly if they are a readable row, the options are then those
of the row, and exchanging neighbouring pairs of different options changes neither. -/
theorem PackOptions.read_grammar (args : List Bytes) :
    ((∃ o, read args = .ok o) ↔ ∃ pairs, IsRow args pairs ∧ IsReadable pairs)
    ∧ (∀ o, read args = .ok o → ∃ pairs, IsRow args pairs ∧ o.Holds pairs)
    ∧ ∀ args', Exchange args args' → ∀ o, read args = .ok o ↔ read args' = .ok o := by
  refine ⟨⟨?_, ?_⟩, ?_, ?_⟩
  · rintro ⟨o, h⟩
    obtain ⟨pairs, hrow, hreadable, -⟩ := read_eq_ok_iff.mp h
    exact ⟨pairs, hrow, hreadable⟩
  · rintro ⟨pairs, hrow, hreadable⟩
    exact exists_read_of_isReadable hrow hreadable
  · intro o h
    obtain ⟨pairs, hrow, -, hholds⟩ := read_eq_ok_iff.mp h
    exact ⟨pairs, hrow, hholds⟩
  · intro args' h o
    exact ⟨read_of_exchange h, read_of_exchange h.symm⟩

/-- Options whose values look like flags. -/
def PackOptions.sampleRow : List Bytes :=
  [ascii "-p", ascii "-o", ascii "--cert", ascii "-p=--key", ascii "-o", ascii "--cert"]

/-- The sample with the password behind the certificate. -/
def PackOptions.sampleExchanged : List Bytes :=
  [ascii "--cert", ascii "-p=--key", ascii "-p", ascii "-o", ascii "-o", ascii "--cert"]

/-- The sample is read, and so it is with the password behind the certificate. -/
theorem PackOptions.read_grammar_sample :
    (∃ o, read sampleRow = .ok o ∧ (∃ pairs, IsRow sampleRow pairs ∧ o.Holds pairs)
      ∧ read sampleExchanged = .ok o ∧ o.password = ascii "-o" ∧ o.output = ascii "--cert") := by
  have hrow : IsRow sampleRow
      [(.password, ascii "-o"), (.certificate, ascii "-p=--key"), (.output, ascii "--cert")] :=
    .cons _ (by decide) (.cons _ (by decide) (.cons _ (by decide) .nil))
  have hexchange : Exchange sampleRow sampleExchanged :=
    .here (a := .password) (b := .certificate) _ _ _ (by decide) (by decide) (by decide)
  have hvalues : ∀ p ∈ [(PackFlag.password, ascii "-o"), (.certificate, ascii "-p=--key"),
      (.output, ascii "--cert")], p.1.Takes p.2 := by
    have hassigns : Assigns (ascii "-p=--key") (ascii "-p", ascii "--key") := by
      decide
    simp only [List.forall_mem_cons]
    exact ⟨trivial, ⟨_, hassigns⟩, trivial, by simp⟩
  have hreadable := IsReadable.mk hvalues ⟨_, rfl, by decide⟩ ⟨_, .tail _ (.head _), .inl rfl⟩
  obtain ⟨hreads, hholds, hexchanged⟩ := read_grammar sampleRow
  obtain ⟨o, hread⟩ := hreads.mpr ⟨_, hrow, hreadable⟩
  obtain ⟨hextends, -, -⟩ := extends_of_read hread
  exact ⟨o, hread, hholds o hread, (hexchanged _ hexchange o).mp hread, hextends.password,
    hextends.output⟩

end Keystore.CommandLine
