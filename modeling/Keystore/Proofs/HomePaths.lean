import Keystore.Shell
import Keystore.Proofs.FileTree
import Mathlib.Data.List.TakeWhile

/-!
# Passwords below the home directory

A text that begins with `~/` stands for a path below the home directory. What follows the mark is
joined to the directory by a slash, and the steps of the joined path are those of the directory
and then the others (`walk?_steps_inside`). As long as no step goes back, the path stays below the
directory (`isPrefix_of_walk?`).

A rest that begins with a slash is a path from the root, though, and joining it to a directory
forgets the directory. `ofText_homeMark` is what a text with the mark leads to in both cases, and
`not_readsAt_home` shows that the second is not the first.
-/

namespace Keystore

open Bytes (ascii)

/-! ## Line ends -/

/-- A text is what is left of some bytes when all line feeds and carriage returns are taken from
their end. -/
def Password.IsWithoutLineEnds (data password : Bytes) : Prop :=
  ∃ ends, data = password ++ ends ∧ (∀ b ∈ ends, b = 0x0A ∨ b = 0x0D)
    ∧ ∀ b, password.getLast? = some b → ¬ (b = 0x0A ∨ b = 0x0D)

theorem Password.isWithoutLineEnds_dropEndWhile (data : Bytes) :
    IsWithoutLineEnds data (Bytes.dropEndWhile isLineEnd data) := by
  obtain ⟨ends, hdata, hends⟩ := Bytes.exists_eq_dropEndWhile_append isLineEnd data
  refine ⟨ends, hdata, fun b hb => isLineEnd_iff.mp (hends b hb), fun b hb => ?_⟩
  have hhead := List.head?_dropWhile_not isLineEnd data.reverse
  rw [Bytes.dropEndWhile, List.getLast?_reverse] at hb
  rw [hb] at hhead
  rw [← isLineEnd_iff]
  exact Bool.eq_false_iff.mp hhead

/-- The password of a text is looked for at a path: if a regular file is there, it is the contents
of the file without the line ends at its end, and else it is the text itself. -/
structure Password.ReadsAt (env : Environment) (files : FileTree) (text path : Bytes) : Prop where
  contents : ∀ data, files.find? path = some (.file data) →
    IsWithoutLineEnds data (ofText env files text)
  itself : (∀ data, files.find? path ≠ some (.file data)) → ofText env files text = text

/-- It is looked for at the path that the text stands for. -/
theorem Password.readsAt_candidate {env : Environment} {files : FileTree} {text : Bytes}
    (h : text ≠ []) : ReadsAt env files text (candidate env text) := by
  constructor
  · intro data hfound
    rw [ofText, if_neg h, hfound]
    exact isWithoutLineEnds_dropEndWhile data
  · intro hnone
    rw [ofText, if_neg h]
    split
    next data hfound => exact absurd hfound (hnone data)
    next => rfl

namespace FileTree

variable {t : FileTree} {directory rest path : Bytes} {k l : Location}

/-! ## Steps -/

/-- The steps of two texts with a slash between them. -/
theorem steps_append (a b : Bytes) : steps (a ++ [slash] ++ b) = steps a ++ steps b := by
  rw [List.append_assoc]
  exact List.splitOn_append_cons_self a b

/-- A path starts where its front does. -/
theorem start_append (h : directory ≠ []) (rest : Bytes) :
    t.start (directory ++ rest) = t.start directory := by
  obtain ⟨b, front, rfl⟩ := List.exists_cons_of_ne_nil h
  rfl

theorem walk?_eq_none (h : ¬ t.isDirectory l) (step : Bytes) (more : List Bytes) :
    t.walk? l (step :: more) = none := by
  unfold walk? enter?
  simp only [h]
  rfl

/-- An empty step in front of another step is one step too many. -/
theorem walk?_nil_cons (l : Location) (step : Bytes) (more : List Bytes) :
    t.walk? l ([] :: step :: more) = t.walk? l (step :: more) := by
  by_cases h : t.isDirectory l
  · have henter : t.enter? l [] = some l := by
      unfold enter?
      rw [h]
      rfl
    have hsome : (t.node? l).isSome := by
      rw [eq_of_beq h]
      rfl
    rw [walk?, henter]
    exact if_pos hsome
  · rw [walk?_eq_none h, walk?_eq_none h]

/-- A step that is not back stays or goes one name deeper. -/
theorem isPrefix_of_enter? {step : Bytes} (hstep : step ≠ dotDot)
    (h : t.enter? l step = some k) : l <+: k := by
  unfold enter? at h
  rw [if_neg hstep] at h
  split at h
  next => exact nomatch h
  next =>
    split at h
    next => exact Option.some.inj h ▸ List.prefix_refl l
    next =>
      split at h
      next => exact nomatch h
      next => exact Option.some.inj h ▸ List.prefix_append l [step]

/-- A walk that leads somewhere enters something with its first step. -/
theorem exists_of_walk?_cons {step : Bytes} {more : List Bytes}
    (h : t.walk? l (step :: more) = some k) :
    ∃ next, t.enter? l step = some next ∧ t.walk? next more = some k := by
  unfold walk? at h
  rcases henter : t.enter? l step with _ | next
  · rw [henter] at h
    cases h
  · rw [henter] at h
    by_cases hsome : (t.node? next).isSome
    · exact ⟨next, rfl, (if_pos hsome).symm.trans h⟩
    · cases (if_neg hsome).symm.trans h

/-- Without a step back a walk only goes deeper. -/
theorem isPrefix_of_walk? {more : List Bytes} (hback : dotDot ∉ more)
    (h : t.walk? l more = some k) : l <+: k := by
  induction more generalizing l with
  | nil =>
    obtain rfl := Option.some.inj h
    exact List.prefix_refl l
  | cons step more ih =>
    rw [List.mem_cons, not_or] at hback
    obtain ⟨next, henter, hrest⟩ := exists_of_walk?_cons h
    exact (isPrefix_of_enter? (Ne.symm hback.1) henter).trans (ih hback.2 hrest)

/-! ## Paths inside a directory -/

/-- A name for something inside a directory. A slash that the directory ends with is not
doubled. -/
def inside (directory rest : Bytes) : Bytes :=
  if directory.getLast? = some slash then directory ++ rest else directory ++ [slash] ++ rest

theorem nul_notMem_behind_slash (hrest : Bytes.nul ∉ rest) : Bytes.nul ∉ [slash] ++ rest := by
  rw [List.mem_append, not_or]
  exact ⟨by decide, hrest⟩

theorem nul_notMem_inside (hnul : Bytes.nul ∉ directory) (hrest : Bytes.nul ∉ rest) :
    Bytes.nul ∉ inside directory rest := by
  unfold inside
  split
  next => exact List.not_mem_append hnul hrest
  next =>
    rw [List.append_assoc]
    exact List.not_mem_append hnul (nul_notMem_behind_slash hrest)

/-- The name of something inside begins with that of the directory. -/
theorem isPrefix_inside (directory rest : Bytes) : directory <+: inside directory rest := by
  unfold inside
  split
  next => exact List.prefix_append _ _
  next =>
    rw [List.append_assoc]
    exact List.prefix_append _ _

/-- The steps inside a directory are followed from the directory. -/
theorem walk?_steps_inside (hne : directory ≠ []) (rest : Bytes) :
    t.walk? (t.start (inside directory rest)) (steps (inside directory rest))
      = (t.walk? (t.start directory) (steps directory)).bind fun k => t.walk? k (steps rest) := by
  unfold inside
  split
  next hslash =>
    -- the empty step at the end of the directory is followed by the steps of the rest
    obtain ⟨front, rfl⟩ := List.getLast?_eq_some_iff.mp hslash
    have hempty : steps (front ++ [slash]) = steps front ++ [[]] := by
      rw [← List.append_nil (front ++ [slash]), steps_append]
      rfl
    obtain ⟨step, more, hsteps⟩ := List.exists_cons_of_ne_nil (List.splitOn_ne_nil slash rest)
    have hrest : steps rest = step :: more := hsteps
    have hskip : ∀ m, t.walk? m ([[]] ++ steps rest) = t.walk? m (steps rest) := by
      intro m
      rw [hrest]
      exact walk?_nil_cons m step more
    rw [start_append hne, steps_append, hempty, ← walk?_append_eq_bind, List.append_assoc,
      walk?_append_eq_bind, walk?_append_eq_bind]
    simp only [hskip]
  next => rw [List.append_assoc, start_append hne, ← List.append_assoc, steps_append,
    walk?_append_eq_bind]

/-- A path without zero bytes is used as it is, unless it is empty or too long. -/
theorem locate?_eq (hnul : Bytes.nul ∉ path) (hne : path ≠ []) :
    t.locate? path
      = if pathLimit < path.length then none else t.walk? (t.start path) (steps path) := by
  have hall : path.untilNul = path := by
    rw [Bytes.untilNul, List.takeWhile_eq_self_iff]
    intro b hb
    exact bne_iff_ne.mpr fun heq => hnul (heq ▸ hb)
  unfold locate? usable?
  simp only [hall, hne, false_or]
  split
  next => rfl
  next => rfl

/-- What follows a zero byte is not seen. -/
theorem locate?_append_of_nul_mem (h : Bytes.nul ∈ path) (back : Bytes) :
    t.locate? (path ++ back) = t.locate? path := by
  have hcut : (path ++ back).untilNul = path.untilNul := by
    rw [Bytes.untilNul, List.takeWhile_append, if_neg]
    · rfl
    · intro hlength
      have hall := List.takeWhile_eq_self_iff.mp
        ((List.takeWhile_prefix _).eq_of_length hlength) _ h
      exact bne_iff_ne.mp hall rfl
  unfold locate? usable?
  rw [hcut]

/-- Nothing inside a directory is seen if the name of the directory is cut. -/
theorem locate?_inside_of_nul_mem (h : Bytes.nul ∈ directory) (rest : Bytes) :
    t.locate? (inside directory rest) = t.locate? directory := by
  obtain ⟨back, hback⟩ := isPrefix_inside directory rest
  rw [← hback, locate?_append_of_nul_mem h]

/-- A path inside a directory leads below the directory, if no step goes back. -/
theorem exists_isPrefix_of_locate?_inside (hne : directory ≠ []) (hrest : Bytes.nul ∉ rest)
    (hback : dotDot ∉ steps rest) (h : t.locate? (inside directory rest) = some l) :
    ∃ k, t.locate? directory = some k ∧ k <+: l := by
  by_cases hnul : Bytes.nul ∈ directory
  · rw [locate?_inside_of_nul_mem hnul] at h
    exact ⟨l, h, List.prefix_refl l⟩
  have hfront := isPrefix_inside directory rest
  have hlength := hfront.length_le
  rw [locate?_eq (nul_notMem_inside hnul hrest) (hfront.ne_nil hne)] at h
  split at h
  next => exact nomatch h
  next hlimit =>
    rw [walk?_steps_inside hne] at h
    obtain ⟨k, hk, hwalk⟩ := Option.bind_eq_some_iff.mp h
    rw [locate?_eq hnul hne, if_neg (by omega)]
    exact ⟨k, hk, isPrefix_of_walk? hback hwalk⟩

/-- Another slash does no harm, unless it makes the path too long. -/
theorem locate?_inside (hne : directory ≠ []) (hrest : Bytes.nul ∉ rest)
    (hlimit : (directory ++ [slash] ++ rest).length ≤ pathLimit) :
    t.locate? (inside directory rest) = t.locate? (directory ++ [slash] ++ rest) := by
  unfold inside
  split
  next hslash =>
    by_cases hnul : Bytes.nul ∈ directory
    · rw [List.append_assoc, locate?_append_of_nul_mem hnul, locate?_append_of_nul_mem hnul]
    have hsingle : Bytes.nul ∉ directory ++ rest := List.not_mem_append hnul hrest
    have hdouble : Bytes.nul ∉ directory ++ ([slash] ++ rest) :=
      List.not_mem_append hnul (nul_notMem_behind_slash hrest)
    have hinside : inside directory rest = directory ++ rest := if_pos hslash
    rw [List.append_assoc] at hlimit
    have hshorter : (directory ++ rest).length ≤ (directory ++ ([slash] ++ rest)).length := by
      simp only [List.length_append]
      omega
    rw [List.append_assoc, locate?_eq hsingle (List.append_ne_nil_of_left_ne_nil hne _),
      locate?_eq hdouble (List.append_ne_nil_of_left_ne_nil hne _), if_neg (by omega),
      if_neg (by omega), ← hinside, walk?_steps_inside hne, start_append hne, ← List.append_assoc,
      steps_append, walk?_append_eq_bind]
  next => rfl

end FileTree

namespace Password

open FileTree (slash inside)

variable {env : Environment} {files : FileTree} {home rest : Bytes}

/-- The home directory is the value of `HOME`, or of `USERPROFILE` if that is empty. -/
theorem home_eq (env : Environment) :
    env.home = if env.get (ascii "HOME") = [] then env.get (ascii "USERPROFILE")
      else env.get (ascii "HOME") := by
  unfold Environment.home Environment.getD
  split
  next h => rw [if_pos h]
  next h => exact (if_neg h).symm

theorem candidate_homeMark (h : env.home ≠ []) (rest : Bytes) :
    candidate env (homeMark ++ rest)
      = if rest.head? = some slash then rest else inside env.home rest := by
  unfold candidate
  rw [Bytes.afterPrefix?_append]
  exact if_neg h

/-- A text that begins with the mark of the home directory. What follows is looked for inside that
directory, which is the same place as behind the directory and a slash and is below the directory
unless a step goes back. What begins with a slash is looked for from the root, wherever the home
directory is. -/
theorem ofText_homeMark (files : FileTree)
    (hhome : home = if env.get (ascii "HOME") = [] then env.get (ascii "USERPROFILE")
      else env.get (ascii "HOME"))
    (hne : home ≠ []) (hrest : Bytes.nul ∉ rest) :
    (rest.head? ≠ some slash →
      ReadsAt env files (homeMark ++ rest) (inside home rest)
      ∧ ((home ++ [slash] ++ rest).length ≤ FileTree.pathLimit →
        ReadsAt env files (homeMark ++ rest) (home ++ [slash] ++ rest))
      ∧ (ascii ".." ∉ FileTree.steps rest → ∀ l,
        files.locate? (inside home rest) = some l →
          ∃ k, files.locate? home = some k ∧ k <+: l))
    ∧ (rest.head? = some slash → ReadsAt env files (homeMark ++ rest) rest) := by
  obtain rfl : home = env.home := hhome.trans (home_eq env).symm
  have hreads : ReadsAt env files (homeMark ++ rest) (candidate env (homeMark ++ rest)) :=
    readsAt_candidate nofun
  rw [candidate_homeMark hne] at hreads
  constructor
  · intro hrelative
    rw [if_neg hrelative] at hreads
    refine ⟨hreads, fun hlimit => ?_, fun hback l hl =>
      FileTree.exists_isPrefix_of_locate?_inside hne hrest hback hl⟩
    have hsame : files.find? (inside env.home rest)
        = files.find? (env.home ++ [slash] ++ rest) := by
      rw [FileTree.find?, FileTree.find?, FileTree.locate?_inside hne hrest hlimit]
    exact ⟨hsame ▸ hreads.contents, hsame ▸ hreads.itself⟩
  · intro hroot
    rwa [if_pos hroot] at hreads

/-- A home directory with a password in it. -/
def sampleFiles : FileTree := FileTree.initial.place (ascii "home/pw.txt") (ascii "secret\n")

/-- An environment that names it. -/
def sampleEnvironment : Environment := ⟨[ascii "HOME=home"]⟩

theorem home_sampleEnvironment : ascii "home"
    = if sampleEnvironment.get (ascii "HOME") = [] then
        sampleEnvironment.get (ascii "USERPROFILE")
      else sampleEnvironment.get (ascii "HOME") := by
  decide +kernel

/-- Where the password is found. -/
theorem find?_sampleFiles :
    sampleFiles.find? (ascii "home/pw.txt") = some (.file (ascii "secret\n")) := by
  decide +kernel

theorem ofText_homeMark_sample :
    (ascii "home" ≠ [] ∧ Bytes.nul ∉ ascii "pw.txt" ∧ (ascii "pw.txt").head? ≠ some slash)
      ∧ IsWithoutLineEnds (ascii "secret\n")
        (ofText sampleEnvironment sampleFiles (homeMark ++ ascii "pw.txt")) := by
  have hne : ascii "home" ≠ [] := by decide
  have hrest : Bytes.nul ∉ ascii "pw.txt" := by decide
  have hrelative : (ascii "pw.txt").head? ≠ some slash := by decide
  obtain ⟨hinside, -⟩ := ofText_homeMark sampleFiles home_sampleEnvironment hne hrest
  exact ⟨⟨hne, hrest, hrelative⟩, (hinside hrelative).1.contents _ find?_sampleFiles⟩

/-- A text with the mark may lead elsewhere than behind the home directory and a slash: with
another slash the password is not found in the home directory. -/
theorem not_readsAt_home :
    ¬ ∀ (env : Environment) (files : FileTree) (home rest : Bytes),
      (home = if env.get (ascii "HOME") = [] then env.get (ascii "USERPROFILE")
        else env.get (ascii "HOME")) →
      home ≠ [] → Bytes.nul ∉ rest →
      ReadsAt env files (homeMark ++ rest) (home ++ [slash] ++ rest) := by
  intro hall
  have hreads := hall sampleEnvironment sampleFiles (ascii "home") (ascii "/pw.txt")
    home_sampleEnvironment (by decide) (by decide)
  have hfound : sampleFiles.find? (ascii "home" ++ [slash] ++ ascii "/pw.txt")
      = some (.file (ascii "secret\n")) := by
    decide +kernel
  have htext : ofText sampleEnvironment sampleFiles (homeMark ++ ascii "/pw.txt")
      = ascii "~//pw.txt" := by
    decide +kernel
  obtain ⟨ends, hdata, -⟩ := hreads.contents _ hfound
  rw [htext] at hdata
  have hlength := congrArg List.length hdata
  rw [List.length_append] at hlength
  have hshort : (ascii "secret\n").length < (ascii "~//pw.txt").length := by decide
  omega

end Password

end Keystore
