import Keystore.FileTree

/-!
# Writing a file and finding it again

A file that is put into a file system stands at its location, and all other locations
hold what they held (`node?_put_self`, `node?_put_of_ne`). If it does not take the place
of a directory, the directories are the same as before, so every path that leads
somewhere still leads there (`walk?_put`).

Hence a path that names a file, or a place for one, leads to the file once it is
written (`write_of_regularOrNew`), and every path that does not lead to that place leads to
what it led to before (`isWrittenAt_put`).
-/

namespace Keystore.FileTree

variable {t : FileTree} {l k : Location} {path data : Bytes}

/-! ## Locations -/

theorem lookup_cons (l k : Location) (n : FileNode) (nodes : List (Location × FileNode)) :
    ((l, n) :: nodes).lookup k = if k = l then some n else nodes.lookup k := by
  rw [List.lookup_cons]
  by_cases h : k = l
  · rw [if_pos h, h, beq_self_eq_true]
  · rw [if_neg h, beq_false_of_ne h]

theorem lookup_putNode (l k : Location) (n : FileNode) (nodes : List (Location × FileNode)) :
    (putNode l n nodes).lookup k = if k = l then some n else nodes.lookup k := by
  induction nodes with
  | nil => exact lookup_cons l k n []
  | cons head rest ih =>
    obtain ⟨l', m⟩ := head
    unfold putNode
    by_cases hl : l' = l
    · rw [if_pos hl, lookup_cons, lookup_cons, hl]
      by_cases h : k = l
      · rw [if_pos h, if_pos h]
      · rw [if_neg h, if_neg h, if_neg h]
    · rw [if_neg hl, lookup_cons, lookup_cons, ih]
      by_cases h : k = l'
      · rw [if_pos h, if_neg (fun hk => hl (h.symm.trans hk)), if_pos h]
      · rw [if_neg h, if_neg h]

/-- What is put at a location stands there. -/
theorem node?_put_self (h : l ≠ []) (n : FileNode) : (t.put l n).node? l = some n := by
  unfold node? put
  rw [if_neg h, lookup_putNode, if_pos rfl]

/-- Other locations are left alone. -/
theorem node?_put_of_ne (h : k ≠ l) (n : FileNode) : (t.put l n).node? k = t.node? k := by
  unfold node? put
  rw [lookup_putNode, if_neg h]

/-- A location that holds no directory is not the root. -/
theorem ne_nil_of_not_directory (h : t.node? l ≠ some .directory) : l ≠ [] := by
  intro hl
  apply h
  rw [hl]
  rfl

/-- A file in the place of anything but a directory leaves the directories the same. -/
theorem isDirectory_put (h : t.node? l ≠ some .directory) (data : Bytes) (k : Location) :
    (t.put l (.file data)).isDirectory k = t.isDirectory k := by
  unfold isDirectory
  by_cases hk : k = l
  · subst hk
    have hbefore : (t.node? k == some .directory) = false := by
      rw [beq_eq_false_iff_ne]
      exact h
    rw [node?_put_self (ne_nil_of_not_directory h), hbefore]
    rfl
  · rw [node?_put_of_ne hk]

theorem enter?_put (h : t.node? l ≠ some .directory) (data : Bytes) (k : Location)
    (step : Bytes) : (t.put l (.file data)).enter? k step = t.enter? k step := by
  unfold enter?
  rw [isDirectory_put h]

/-- What was there is still there. -/
theorem isSome_node?_put (n : FileNode) (h : (t.node? k).isSome) :
    ((t.put l n).node? k).isSome := by
  by_cases hk : k = l
  · subst hk
    by_cases hroot : k = []
    · subst hroot
      rfl
    · rw [node?_put_self hroot]
      rfl
  · rw [node?_put_of_ne hk]
    exact h

/-! ## Paths -/

/-- Steps that lead somewhere still lead there when a file is put somewhere. -/
theorem walk?_put (h : t.node? l ≠ some .directory) (data : Bytes) {a b : Location}
    {steps : List Bytes} (hwalk : t.walk? a steps = some b) :
    (t.put l (.file data)).walk? a steps = some b := by
  induction steps generalizing a with
  | nil => exact hwalk
  | cons step steps ih =>
    unfold walk? at hwalk ⊢
    -- the step leads to the same place, and what was there still is
    rw [enter?_put h]
    split at hwalk
    · next next henter =>
      by_cases hsome : (t.node? next).isSome
      · rw [if_pos hsome] at hwalk
        rw [if_pos (isSome_node?_put _ hsome)]
        exact ih hwalk
      · rw [if_neg hsome] at hwalk
        exact nomatch hwalk
    · exact nomatch hwalk

/-- Steps after steps are followed from where the first ones lead. -/
theorem walk?_append_eq_bind (a : Location) (front back : List Bytes) :
    t.walk? a (front ++ back) = (t.walk? a front).bind fun b => t.walk? b back := by
  induction front generalizing a with
  | nil => rfl
  | cons step front ih =>
    rw [List.cons_append, walk?, walk?]
    split
    next next henter =>
      split
      next => exact ih next
      next => rfl
    next => rfl

/-- Steps after steps that lead somewhere. -/
theorem walk?_append {a b : Location} {front : List Bytes} (h : t.walk? a front = some b)
    (back : List Bytes) : t.walk? a (front ++ back) = t.walk? b back := by
  rw [walk?_append_eq_bind, h, Option.bind_some]

/-- A file goes nowhere: steps that come to it end there, and all others lead where they
did. -/
theorem walk?_put_or (h : t.node? l ≠ some .directory) (data : Bytes) (a : Location)
    (steps : List Bytes) :
    (t.put l (.file data)).walk? a steps = some l
      ∨ (t.put l (.file data)).walk? a steps = t.walk? a steps := by
  -- from the place of the file no step leads on, neither now nor before
  have hstuck : ∀ (step : Bytes) (more : List Bytes), t.walk? l (step :: more) = none := by
    intro step more
    have henter : t.enter? l step = none := by
      unfold enter? isDirectory
      rw [beq_false_of_ne h]
      rfl
    rw [walk?, henter]
  induction steps generalizing a with
  | nil => exact Or.inr rfl
  | cons step more ih =>
    rw [walk?, walk?, enter?_put h]
    rcases t.enter? a step with _ | next
    · exact Or.inr rfl
    by_cases hnext : next = l
    · subst hnext
      have hfile : ((t.put next (.file data)).node? next).isSome := by
        rw [node?_put_self (ne_nil_of_not_directory h)]
        rfl
      simp only [if_pos hfile]
      cases more with
      | nil => exact Or.inl rfl
      | cons step' more =>
        rw [hstuck, ite_self]
        refine (ih next).imp_right fun hsame => ?_
        rw [hsame, hstuck]
    · simp only [node?_put_of_ne hnext]
      split
      next => exact ih next
      next => exact Or.inr rfl

/-! ## Writing -/

/-- The files of `t` with one of them written anew: no other location and no other path
shows it. -/
structure IsWrittenAt (t : FileTree) (l : Location) (data : Bytes) (t' : FileTree) : Prop where
  node : t'.node? l = some (.file data)
  others : ∀ k, k ≠ l → t'.node? k = t.node? k
  here : t'.here = t.here
  paths : ∀ path, t'.locate? path = some l ∨ t'.find? path = t.find? path

theorem isWrittenAt_put (h : t.node? l ≠ some .directory) (data : Bytes) :
    t.IsWrittenAt l data (t.put l (.file data)) where
  node := node?_put_self (ne_nil_of_not_directory h) _
  others := fun _ hk => node?_put_of_ne hk _
  here := rfl
  paths := by
    intro path
    unfold find? locate?
    rcases usable? path with _ | text
    · exact Or.inr rfl
    show (t.put l (.file data)).walk? (t.start text) (steps text) = some l
      ∨ ((t.put l (.file data)).walk? (t.start text) (steps text)).bind _
        = (t.walk? (t.start text) (steps text)).bind _
    rcases walk?_put_or h data (t.start text) (steps text) with hthere | hsame
    · exact Or.inl hthere
    rw [hsame]
    rcases t.walk? (t.start text) (steps text) with _ | k
    · exact Or.inr rfl
    by_cases hk : k = l
    · exact Or.inl (congrArg some hk)
    · exact Or.inr (node?_put_of_ne hk _)

/-- A path to a regular file, or to a place where there is none yet. -/
def IsRegularOrNew (t : FileTree) (path : Bytes) : Prop :=
  ∃ l, t.target? path = some l ∧ (t.node? l = none ∨ ∃ data, t.node? l = some (.file data))

/-- The place that a path names is the last of its steps from a directory. -/
theorem exists_of_target? (h : t.target? path = some l) :
    ∃ text last directory, usable? path = some text ∧ (steps text).getLast? = some last
      ∧ t.walk? (t.start text) (steps text).dropLast = some directory
      ∧ t.enter? directory last = some l := by
  unfold target? at h
  obtain ⟨text, htext, h⟩ := Option.bind_eq_some_iff.mp h
  obtain ⟨last, hlast, h⟩ := Option.bind_eq_some_iff.mp h
  obtain ⟨directory, hwalk, h⟩ := Option.bind_eq_some_iff.mp h
  by_cases hdots : last = [] ∨ last = dot ∨ last = dotDot
  · rw [if_pos hdots] at h
    exact nomatch h
  · rw [if_neg hdots] at h
    exact ⟨text, last, directory, htext, hlast, hwalk, h⟩

/-- A path leads to the file that is put where it says. -/
theorem find?_put (h : t.target? path = some l) (hl : t.node? l ≠ some .directory)
    (data : Bytes) : (t.put l (.file data)).find? path = some (.file data) := by
  obtain ⟨text, last, directory, htext, hlast, hwalk, henter⟩ := exists_of_target? h
  have hfile : (t.put l (.file data)).node? l = some (.file data) :=
    node?_put_self (ne_nil_of_not_directory hl) _
  have hsteps : steps text = (steps text).dropLast ++ [last] := by
    obtain ⟨front, hfront⟩ := List.getLast?_eq_some_iff.mp hlast
    rw [hfront, List.dropLast_concat]
  have hstart : (t.put l (.file data)).start text = t.start text := rfl
  -- the directory is reached as before, and the last step now leads to the file
  have hlocate : (t.put l (.file data)).locate? path = some l := by
    unfold locate?
    rw [htext, Option.bind_some, hsteps, hstart, walk?_append (walk?_put hl data hwalk)]
    unfold walk?
    rw [enter?_put hl, henter]
    simp only [hfile, Option.isSome_some, if_true]
    rfl
  unfold find?
  rw [hlocate, Option.bind_some, hfile]

theorem not_directory (h : t.node? l = none ∨ ∃ data, t.node? l = some (.file data)) :
    t.node? l ≠ some .directory := by
  rcases h with hnone | ⟨old, hfile⟩
  · rw [hnone]
    exact nofun
  · rw [hfile]
    exact nofun

/-- A file that is written to a regular or new path is found there, and no other location
is touched. -/
theorem write_of_regularOrNew (h : t.IsRegularOrNew path) (data : Bytes) :
    ∃ l, t.target? path = some l ∧ t.write path data = .ok (t.put l (.file data))
      ∧ (t.put l (.file data)).read path = .ok data := by
  obtain ⟨l, htarget, hnode⟩ := h
  have hl := not_directory hnode
  refine ⟨l, htarget, ?_, ?_⟩
  · unfold write
    rw [htarget]
    rcases hnode with hnone | ⟨old, hfile⟩
    · simp only [hnone]
    · simp only [hfile]
  · unfold read
    rw [find?_put htarget hl]

/-- A regular or new path is all that writing to it changes. -/
theorem isWrittenAt_of_write {t' : FileTree} (h : t.IsRegularOrNew path)
    (hwrite : t.write path data = .ok t') :
    ∃ l, t.target? path = some l ∧ t'.read path = .ok data ∧ t.IsWrittenAt l data t' := by
  obtain ⟨l, htarget, hput, hread⟩ := write_of_regularOrNew h data
  obtain rfl := Except.ok.inj (hput.symm.trans hwrite)
  obtain ⟨l', htarget', hnode⟩ := h
  obtain rfl := Option.some.inj (htarget'.symm.trans htarget)
  exact ⟨l', htarget, hread, isWrittenAt_put (not_directory hnode) data⟩

/-- Writing elsewhere can succeed only where a device swallows everything. -/
theorem eq_of_write {t' : FileTree} (h : ¬ t.IsRegularOrNew path)
    (hwrite : t.write path data = .ok t') : t' = t := by
  unfold write at hwrite
  split at hwrite
  next => exact nomatch hwrite
  next l htarget =>
    split at hwrite
    next => exact nomatch hwrite
    next => exact (Except.ok.inj hwrite).symm
    next =>
      split at hwrite
      next => exact (Except.ok.inj hwrite).symm
      next => exact nomatch hwrite
    next old hnode => exact absurd ⟨l, htarget, Or.inr ⟨old, hnode⟩⟩ h
    next hnode => exact absurd ⟨l, htarget, Or.inl hnode⟩ h

end Keystore.FileTree
