import Keystore.CommandLine.Arguments
import Mathlib.Data.List.Forall2
import Mathlib.Data.List.TakeDrop
import Mathlib.Data.List.TakeWhile
import Mathlib.Tactic.SplitIfs

/-!
# What the arguments of `pack` say

The options of `pack` are read from a row of pairs, and `valuesOf` picks out the
values of one option in order. What reading makes of a row is said option by option in
`PackOptions.Extends`: of an option that is kept once the last value counts, and the
values of the others are added one by one to those that are there.

`PackOptions.extends_of_readPairs` is the induction along the row; a step of it is one
pair (`PackOptions.Extends.cons`).
-/

namespace Keystore

namespace Bytes

/-! ## Splitting at a mark -/

/-- A text that holds the mark is split at the first one. -/
theorem splitAtMark_append {mark : UInt8} {front : Bytes} (back : Bytes) (h : mark ∉ front) :
    splitAtMark mark (front ++ mark :: back) = (front, some back) := by
  have hall : ∀ b ∈ front, (b != mark) = true := by
    intro b hb
    rw [bne_iff_ne]
    rintro rfl
    exact h hb
  unfold splitAtMark
  rw [List.span_eq_takeWhile_dropWhile, List.takeWhile_append_of_pos hall,
    List.dropWhile_append_of_pos hall]
  simp

/-- A text without the mark is not split. -/
theorem splitAtMark_of_notMem {mark : UInt8} {s : Bytes} (h : mark ∉ s) :
    splitAtMark mark s = (s, none) := by
  have hall : ∀ b ∈ s, (b != mark) = true := by
    intro b hb
    rw [bne_iff_ne]
    rintro rfl
    exact h hb
  unfold splitAtMark
  rw [List.span_eq_takeWhile_dropWhile, List.takeWhile_eq_self_iff.mpr hall,
    List.dropWhile_eq_nil_iff.mpr hall]

theorem splitAtMark_eq_some {mark : UInt8} {s front back : Bytes} :
    splitAtMark mark s = (front, some back) ↔ mark ∉ front ∧ s = front ++ mark :: back := by
  constructor
  · intro h
    by_cases hmark : mark ∈ s
    · obtain ⟨front', back', rfl, hfront⟩ := List.eq_append_cons_of_mem hmark
      rw [splitAtMark_append back' hfront] at h
      obtain ⟨rfl, hback⟩ := Prod.mk.inj h
      obtain rfl := Option.some.inj hback
      exact ⟨hfront, rfl⟩
    · rw [splitAtMark_of_notMem hmark] at h
      exact nomatch congrArg Prod.snd h
  · rintro ⟨hfront, rfl⟩
    exact splitAtMark_append back hfront

theorem splitAtMark_eq_none {mark : UInt8} {s front : Bytes} :
    splitAtMark mark s = (front, none) ↔ mark ∉ front ∧ s = front := by
  constructor
  · intro h
    by_cases hmark : mark ∈ s
    · obtain ⟨front', back', rfl, hfront⟩ := List.eq_append_cons_of_mem hmark
      rw [splitAtMark_append back' hfront] at h
      exact nomatch congrArg Prod.snd h
    · rw [splitAtMark_of_notMem hmark] at h
      obtain ⟨rfl, -⟩ := Prod.mk.inj h
      exact ⟨hmark, rfl⟩
  · rintro ⟨hfront, rfl⟩
    exact splitAtMark_of_notMem hfront

end Bytes

namespace CommandLine

open Bytes (ascii)

/-! ## Values -/

/-- A value `alias=rest`, whose alias is not empty and ends in front of the first `=`. -/
def Assigns (value : Bytes) (a : Bytes × Bytes) : Prop :=
  a.1 ≠ [] ∧ equals ∉ a.1 ∧ value = a.1 ++ equals :: a.2

instance (value : Bytes) (a : Bytes × Bytes) : Decidable (Assigns value a) :=
  inferInstanceAs (Decidable (_ ∧ _ ∧ _))

/-- A value `alias=path` or `alias=path:chain`, split at the first `=` and then at the
first colon. -/
def KeySource.IsNamed (value : Bytes) (k : KeySource) : Prop :=
  ∃ paths, Assigns value (k.name, paths) ∧ colon ∉ k.path
    ∧ (paths = k.path ∧ k.chain = [] ∨ paths = k.path ++ colon :: k.chain)

theorem assignment_eq_ok {flag value : Bytes} {a : Bytes × Bytes} :
    assignment flag value = .ok a ↔ Assigns value a := by
  unfold assignment Assigns
  split
  · next b name rest hsplit =>
    obtain ⟨hname, rfl⟩ := Bytes.splitAtMark_eq_some.mp hsplit
    constructor
    · intro h
      obtain rfl := Except.ok.inj h
      exact ⟨List.cons_ne_nil _ _, hname, rfl⟩
    · rintro ⟨-, hmark, heq⟩
      -- a text has one split at its first mark
      have hother := Bytes.splitAtMark_append a.2 hmark
      rw [← heq, hsplit] at hother
      obtain ⟨hfront, hback⟩ := Prod.mk.inj hother
      rw [hfront, Option.some.inj hback]
  · next hno =>
    constructor
    · intro h
      exact nomatch h
    · rintro ⟨hname, hmark, rfl⟩
      obtain ⟨b, name, hcons⟩ := List.exists_cons_of_ne_nil hname
      rw [Bytes.splitAtMark_append a.2 hmark, hcons] at hno
      exact absurd rfl (hno b name a.2)

/-- What is made of a split value comes from a value that can be split. -/
theorem exists_of_map_assignment {α : Type} {flag value : Bytes} {g : Bytes × Bytes → α} {x : α}
    (h : (assignment flag value).map g = .ok x) : ∃ a, Assigns value a ∧ g a = x := by
  rcases ha : assignment flag value with _ | a
  · rw [ha] at h
    exact nomatch h
  · rw [ha] at h
    exact ⟨a, assignment_eq_ok.mp ha, Except.ok.inj h⟩

/-- The paths of a key and its chain, taken apart, name the key. -/
theorem KeySource.isNamed_ofPaths {value name paths : Bytes} (h : Assigns value (name, paths)) :
    (ofPaths name paths).IsNamed value := by
  unfold ofPaths
  rcases hsplit : Bytes.splitAtMark colon paths with ⟨path, _ | chain⟩
  · obtain ⟨hpath, rfl⟩ := Bytes.splitAtMark_eq_none.mp hsplit
    exact ⟨paths, h, hpath, Or.inl ⟨rfl, rfl⟩⟩
  · obtain ⟨hpath, rfl⟩ := Bytes.splitAtMark_eq_some.mp hsplit
    exact ⟨_, h, hpath, Or.inr rfl⟩

/-! ## Flags -/

/-- The names of an option. -/
def PackFlag.names : PackFlag → List Bytes
  | password => [ascii "-p", ascii "--password"]
  | output => [ascii "--out", ascii "-o"]
  | certificate => [ascii "--cert"]
  | key => [ascii "--key"]
  | keyPassword => [ascii "--key-password"]
  | timestamp => [ascii "--timestamp"]

/-- The values that flags of the given names have in a row of pairs, in order. -/
def valuesOf (names : List Bytes) : List Bytes → List Bytes
  | flag :: value :: rest =>
    if flag ∈ names then value :: valuesOf names rest else valuesOf names rest
  | _ => []

/-- No two options share a name. -/
theorem PackFlag.ofArg?_of_mem {option : PackFlag} {flag : Bytes} (h : flag ∈ option.names) :
    ofArg? flag = some option := by
  revert h flag
  cases option <;> decide

/-- What an argument is taken for is one of its names. -/
theorem PackFlag.mem_names {option : PackFlag} {flag : Bytes} (h : ofArg? flag = some option) :
    flag ∈ option.names := by
  unfold ofArg? at h
  split_ifs at h with hflag hflag hflag hflag hflag hflag
  all_goals
    obtain rfl := Option.some.inj h
    simpa [names] using hflag

theorem valuesOf_cons {option : PackFlag} {flag : Bytes} (h : PackFlag.ofArg? flag = some option)
    (other : PackFlag) (value : Bytes) (rest : List Bytes) :
    valuesOf other.names (flag :: value :: rest)
      = if option = other then value :: valuesOf other.names rest
        else valuesOf other.names rest := by
  have hmem : flag ∈ other.names ↔ option = other := by
    constructor
    · intro hflag
      exact Option.some.inj (h.symm.trans (PackFlag.ofArg?_of_mem hflag))
    · rintro rfl
      exact PackFlag.mem_names h
  show (if flag ∈ other.names then value :: valuesOf other.names rest
    else valuesOf other.names rest) = _
  by_cases hoption : option = other
  · rw [if_pos (hmem.mpr hoption), if_pos hoption]
  · rw [if_neg (fun hflag => hoption (hmem.mp hflag)), if_neg hoption]

/-! ## Rows of pairs -/

/-- What a row of pairs makes of some options. -/
structure PackOptions.Extends (o : PackOptions) (args : List Bytes) (o' : PackOptions) : Prop where
  output : o'.output = (valuesOf PackFlag.output.names args).getLastD o.output
  password : o'.password = (valuesOf PackFlag.password.names args).getLastD o.password
  certificates : ∃ added, o'.certificates = o.certificates ++ added
    ∧ List.Forall₂ Assigns (valuesOf PackFlag.certificate.names args) added
  keys : ∃ added, o'.keys = o.keys ++ added
    ∧ List.Forall₂ KeySource.IsNamed (valuesOf PackFlag.key.names args) added
  keyPasswords : ∃ added, o'.keyPasswords = o.keyPasswords ++ added
    ∧ List.Forall₂ Assigns (valuesOf PackFlag.keyPassword.names args) added
  time : ∃ times, o'.time = (times.map some).getLastD o.time
    ∧ List.Forall₂ (fun text t => Instant.parse text = .ok t)
        (valuesOf PackFlag.timestamp.names args) times

namespace PackOptions

theorem Extends.nil (o : PackOptions) : o.Extends [] o where
  output := rfl
  password := rfl
  certificates := ⟨[], (List.append_nil _).symm, .nil⟩
  keys := ⟨[], (List.append_nil _).symm, .nil⟩
  keyPasswords := ⟨[], (List.append_nil _).symm, .nil⟩
  time := ⟨[], rfl, .nil⟩

/-- One more pair in front adds its value to one option and leaves the others as they
are. -/
theorem Extends.cons {o o₁ o' : PackOptions} {option : PackFlag} {flag value : Bytes}
    {rest : List Bytes} (hflag : PackFlag.ofArg? flag = some option)
    (hset : o.set option flag value = .ok o₁) (hrest : o₁.Extends rest o') :
    o.Extends (flag :: value :: rest) o' := by
  obtain ⟨houtput, hpassword, hcertificates, hkeys, hkeyPasswords, htime⟩ := hrest
  -- only the values of this option gain one, so the other five clauses are those of the rest
  have hvalues := valuesOf_cons hflag
  unfold set at hset
  cases option with
  | password =>
    obtain rfl := Except.ok.inj hset
    constructor <;> simp only [hvalues, reduceCtorEq, if_false, if_true] <;> try assumption
    rw [List.getLastD_cons, hpassword]
  | output =>
    obtain rfl := Except.ok.inj hset
    constructor <;> simp only [hvalues, reduceCtorEq, if_false, if_true] <;> try assumption
    rw [List.getLastD_cons, houtput]
  | certificate =>
    obtain ⟨a, ha, rfl⟩ := exists_of_map_assignment hset
    constructor <;> simp only [hvalues, reduceCtorEq, if_false, if_true] <;> try assumption
    obtain ⟨added, heq, hadded⟩ := hcertificates
    rw [List.append_assoc] at heq
    exact ⟨a :: added, heq, .cons ha hadded⟩
  | key =>
    obtain ⟨⟨name, paths⟩, ha, rfl⟩ := exists_of_map_assignment hset
    constructor <;> simp only [hvalues, reduceCtorEq, if_false, if_true] <;> try assumption
    obtain ⟨added, heq, hadded⟩ := hkeys
    rw [List.append_assoc] at heq
    exact ⟨_ :: added, heq, .cons (KeySource.isNamed_ofPaths ha) hadded⟩
  | keyPassword =>
    obtain ⟨a, ha, rfl⟩ := exists_of_map_assignment hset
    constructor <;> simp only [hvalues, reduceCtorEq, if_false, if_true] <;> try assumption
    obtain ⟨added, heq, hadded⟩ := hkeyPasswords
    rw [List.append_assoc] at heq
    exact ⟨a :: added, heq, .cons ha hadded⟩
  | timestamp =>
    rcases ht : Instant.parse value with _ | t
    · simp only [ht] at hset
      exact nomatch hset
    simp only [ht] at hset
    obtain rfl := Except.ok.inj hset
    constructor <;> simp only [hvalues, reduceCtorEq, if_false, if_true] <;> try assumption
    obtain ⟨times, heq, htimes⟩ := htime
    refine ⟨t :: times, ?_, .cons ht htimes⟩
    rw [List.map_cons, List.getLastD_cons, heq]

/-- Reading a row of pairs goes through one pair after the other. -/
theorem extends_of_readPairs {o o' : PackOptions} {args : List Bytes}
    (h : readPairs o args = .ok o') : o.Extends args o' := by
  induction o, args using readPairs.induct with
  | case1 o =>
    rw [readPairs] at h
    obtain rfl := Except.ok.inj h
    exact .nil o
  | case2 o flag rest hflag =>
    rw [readPairs, hflag] at h
    exact nomatch h
  | case3 o flag option hflag =>
    rw [readPairs, hflag] at h
    exact nomatch h
  | case4 o flag option hflag value rest o₁ hset ih =>
    simp only [readPairs, hflag, hset] at h
    exact .cons hflag hset (ih h)
  | case5 o flag option hflag value rest f hset =>
    simp only [readPairs, hflag, hset] at h
    exact nomatch h

/-- The options of `pack` are what the row of pairs makes of no options, and name an
output and an entry. -/
theorem extends_of_read {o : PackOptions} {args : List Bytes} (h : read args = .ok o) :
    initial.Extends args o ∧ o.output ≠ [] ∧ ¬ (o.certificates = [] ∧ o.keys = []) := by
  unfold read at h
  split at h
  · exact nomatch h
  · next o' hpairs =>
    split_ifs at h with houtput hentries
    obtain rfl := Except.ok.inj h
    exact ⟨extends_of_readPairs hpairs, houtput, hentries⟩

end PackOptions

end CommandLine

end Keystore
