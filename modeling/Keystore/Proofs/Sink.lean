import Keystore.Proofs.StoreFile
import Keystore.Sink

/-!
# A sink gains whole records

What an item adds to a sink is its record (`Item.record?`), which is told by the item itself, the
clock, and the random bytes that are left. Writers put their parts into the sink one after the
other, so that nothing is left of a failed one has to be shown for each of them: it ends
in one of two ways (`Item.Written`, `Item.written`), with its record behind the sink, or with
sink and random bytes as they were.

From that step follows what a row of writings does (`Sink.writeAll_adds`): the sink has gained the
records of those that did not fail, in order, and which these are does not depend on what was in
the sink.
-/

namespace Keystore

/-! ## Records -/

namespace Item

/-- The record of an item where the clock shows `now` and `random` is left; `none` if it
cannot be written. -/
def record? (now : Instant) (random : Bytes) : Item → Option Bytes
  | u16 n => some (BigEndian.u16 n)
  | u32 n => some (BigEndian.u32 n)
  | u64 n => some (BigEndian.u64 n)
  | time t => some (Field.time t)
  | text s => if s.length ≤ 65535 then some (Field.ofText s) else none
  | length n => if n < 2 ^ 32 then some (Field.ofLength n) else none
  | blob data => if data.length < 2 ^ 32 then some (Field.ofBlob data) else none
  | certificate e =>
    if e.name.length ≤ 65535 ∧ e.der.length < 2 ^ 32 then some (e.layout now) else none
  | key passwords e =>
    match e.key with
    | some ⟨.rsa, some _⟩ =>
      if e.name.length ≤ 65535 ∧ 20 ≤ random.length then
        some (e.layout passwords now (random.take 20))
      else none
    | _ => none

/-- How many random bytes the record of an item takes. -/
def salt : Item → Nat
  | key _ _ => 20
  | _ => 0

/-- The records of items that are written one after the other. -/
def records (now : Instant) : Bytes → List Item → List (Option Bytes)
  | _, [] => []
  | random, item :: items =>
    match item.record? now random with
    | some r => some r :: records now (random.drop item.salt) items
    | none => none :: records now random items

/-- What an item holds fits the fields for it. Only of a key it matters: one that does not fit
is found out when its salt is taken. -/
def Fits : Item → Prop
  | key _ e => e.Fits
  | _ => True

/-- The ways in which writing an item ends. -/
inductive Written (item : Item) (sink : Bytes) (s : Supply) :
    Except Fault Bytes × Bytes × Supply → Prop
  | added {r : Bytes} {s' : Supply} (hrecord : item.record? s.now s.random = some r)
    (hnow : s'.now = s.now) (hrandom : s'.random = s.random.drop item.salt) :
    Written item sink s (.ok r, sink ++ r, s')
  | refused {f : Fault} {s' : Supply} (hrecord : item.record? s.now s.random = none)
    (hnow : s'.now = s.now) (hrandom : s'.random = s.random) :
    Written item sink s (.error f, sink, s')

end Item

/-! ## Writers -/

namespace Writer

variable (sink : Bytes) (s : Supply)

theorem run_add (bytes : Bytes) :
    (add bytes).run.run (sink, s) = (.ok (), sink ++ bytes, s) := rfl

/-- The parts of a number stand together. -/
theorem run_u64 (n : UInt64) :
    (u64 n).run.run (sink, s) = (.ok (), sink ++ BigEndian.u64 n, s) := by
  unfold u64 u32
  rw [Computation.run_bind_of_ok (run_add sink s _), run_add, List.append_assoc]
  rfl

theorem run_text_of_le {t : Bytes} (h : t.length ≤ 65535) :
    (text t).run.run (sink, s) = (.ok (), sink ++ Field.ofText t, s) := by
  unfold text
  rw [if_neg (Nat.not_lt.mpr h)]
  show ((add _ >>= fun _ => add t).run.run (sink, s)) = _
  rw [Computation.run_bind_of_ok (run_add sink s _), run_add, List.append_assoc]
  rfl

/-- The length is looked at before anything is put into the sink. -/
theorem run_text_of_lt {t : Bytes} (h : 65535 < t.length) :
    (text t).run.run (sink, s) = (.error (.textTooLong t.length), sink, s) := by
  unfold text
  rw [if_pos h]
  rfl

theorem run_length_of_lt {n : Nat} (h : n < 2 ^ 32) :
    (length n).run.run (sink, s) = (.ok (), sink ++ Field.ofLength n, s) := by
  unfold length
  rw [if_neg (Nat.not_lt.mpr (Nat.le_of_lt_succ h))]
  rfl

theorem run_length_of_le {n : Nat} (h : 2 ^ 32 ≤ n) :
    (length n).run.run (sink, s) = (.error (.lengthTooLarge n), sink, s) := by
  unfold length
  rw [if_pos (Nat.lt_of_succ_le h)]
  rfl

theorem run_blob_of_lt {data : Bytes} (h : data.length < 2 ^ 32) :
    (blob data).run.run (sink, s) = (.ok (), sink ++ Field.ofBlob data, s) := by
  unfold blob
  rw [Computation.run_bind_of_ok (run_length_of_lt sink s h), run_add, List.append_assoc]
  rfl

theorem run_blob_of_le {data : Bytes} (h : 2 ^ 32 ≤ data.length) :
    (blob data).run.run (sink, s) = (.error (.lengthTooLarge data.length), sink, s) := by
  unfold blob
  rw [Computation.run_bind_of_error (run_length_of_le sink s h)]

variable {sink s} {t : Task Bytes} {s' : Supply}

/-- What a task has made is put into the sink as a whole. -/
theorem run_task_add_of_ok {r : Bytes} (h : t.run.run s = (.ok r, s')) :
    (task t >>= add).run.run (sink, s) = (.ok (), sink ++ r, s') := by
  have htask : (task t).run.run (sink, s) = (.ok r, sink, s') := by
    show ((t.run.run s).1, sink, (t.run.run s).2) = _
    rw [h]
  rw [Computation.run_bind_of_ok htask, run_add]

theorem run_task_add_of_error {f : Fault} (h : t.run.run s = (.error f, s')) :
    (task t >>= add).run.run (sink, s) = (.error f, sink, s') := by
  have htask : (task t).run.run (sink, s) = (.error f, sink, s') := by
    show ((t.run.run s).1, sink, (t.run.run s).2) = _
    rw [h]
  rw [Computation.run_bind_of_error htask]

end Writer

/-! ## One item -/

namespace Item

variable {item : Item} {sink : Bytes} {s s' : Supply}

/-- A writer that has put its record behind the sink. -/
theorem Written.of_ok {r : Bytes}
    (h : (Writer.item item).run.run (sink, s) = (.ok (), sink ++ r, s'))
    (hrecord : item.record? s.now s.random = some r) (hnow : s'.now = s.now)
    (hrandom : s'.random = s.random.drop item.salt) :
    item.Written sink s (Sink.write item sink s) := by
  have hwrite : Sink.write item sink s = (.ok r, sink ++ r, s') := by
    unfold Sink.write
    rw [h]
    dsimp only
    rw [List.drop_left]
  rw [hwrite]
  exact .added hrecord hnow hrandom

/-- A writer that has left the sink as it was. -/
theorem Written.of_error {f : Fault}
    (h : (Writer.item item).run.run (sink, s) = (.error f, sink, s'))
    (hrecord : item.record? s.now s.random = none) (hnow : s'.now = s.now)
    (hrandom : s'.random = s.random) :
    item.Written sink s (Sink.write item sink s) := by
  have hwrite : Sink.write item sink s = (.error f, sink, s') := by
    unfold Sink.write
    rw [h]
  rw [hwrite]
  exact .refused hrecord hnow hrandom

theorem written_certificate (e : CertificateEntry) (sink : Bytes) (s : Supply) :
    (certificate e).Written sink s (Sink.write (certificate e) sink s) := by
  have hways := e.recorded s
  rcases hrun : e.record.run.run s with ⟨f | r, s'⟩
  · have hwriter : (Writer.item (certificate e)).run.run (sink, s) = (.error f, sink, s') :=
      Writer.run_task_add_of_error hrun
    rw [hrun] at hways
    cases hways with
    | longName hname => exact .of_error hwriter (if_neg fun h => Nat.not_lt.mpr h.1 hname) rfl rfl
    | oversized _ hder =>
      exact .of_error hwriter (if_neg fun h => Nat.not_lt.mpr (Nat.le_of_lt_succ h.2) hder) rfl rfl
  · have hwriter : (Writer.item (certificate e)).run.run (sink, s) = (.ok (), sink ++ r, s') :=
      Writer.run_task_add_of_ok hrun
    rw [hrun] at hways
    cases hways with
    | written hname hder => exact .of_ok hwriter (if_pos ⟨hname, Nat.lt_succ_of_le hder⟩) rfl rfl

theorem written_key (passwords : Passwords) {e : KeyEntry} (hfits : e.Fits) (sink : Bytes)
    (s : Supply) : (key passwords e).Written sink s (Sink.write (key passwords e) sink s) := by
  have hways := e.recorded passwords s
  rcases hrun : (e.record passwords).run.run s with ⟨f | r, s'⟩
  · have hwriter : (Writer.item (key passwords e)).run.run (sink, s) = (.error f, sink, s') :=
      Writer.run_task_add_of_error hrun
    rw [hrun] at hways
    -- whatever is wrong, it is noticed before the salt is taken
    cases hways with
    | longName hname =>
      refine .of_error hwriter ?_ rfl rfl
      rw [record?]
      split
      next => exact if_neg fun h => Nat.not_lt.mpr h.1 hname
      next => rfl
    | unsupported _ hkey =>
      refine .of_error hwriter ?_ rfl rfl
      rw [record?]
      split
      next hrsa => exact absurd rfl (hkey _ hrsa)
      next => rfl
    | noPrivatePart _ hkey =>
      refine .of_error hwriter ?_ rfl rfl
      rw [record?, hkey]
    | noRandomness secret _ hkey hrandom =>
      refine .of_error hwriter ?_ rfl rfl
      rw [record?, hkey]
      exact if_neg fun h => Nat.not_lt.mpr h.2 hrandom
    | oversized _ _ _ _ _ hlarge _ => exact absurd hfits hlarge
  · have hwriter : (Writer.item (key passwords e)).run.run (sink, s) = (.ok (), sink ++ r, s') :=
      Writer.run_task_add_of_ok hrun
    rw [hrun] at hways
    cases hways with
    | written secret hname hkey hrandom _ =>
      refine .of_ok hwriter ?_ rfl rfl
      rw [record?, hkey]
      exact if_pos ⟨hname, hrandom⟩

/-- Writing an item ends in one of these ways. -/
theorem written (hfits : item.Fits) (sink : Bytes) (s : Supply) :
    item.Written sink s (Sink.write item sink s) := by
  cases item with
  | u16 n => exact .of_ok (Writer.run_add sink s _) rfl rfl rfl
  | u32 n => exact .of_ok (Writer.run_add sink s _) rfl rfl rfl
  | u64 n => exact .of_ok (Writer.run_u64 sink s n) rfl rfl rfl
  | time t => exact .of_ok (Writer.run_u64 sink s _) rfl rfl rfl
  | text t =>
    by_cases h : t.length ≤ 65535
    · exact .of_ok (Writer.run_text_of_le sink s h) (if_pos h) rfl rfl
    · exact .of_error (Writer.run_text_of_lt sink s (Nat.lt_of_not_le h)) (if_neg h) rfl rfl
  | length n =>
    by_cases h : n < 2 ^ 32
    · exact .of_ok (Writer.run_length_of_lt sink s h) (if_pos h) rfl rfl
    · exact .of_error (Writer.run_length_of_le sink s (Nat.le_of_not_lt h)) (if_neg h) rfl rfl
  | blob data =>
    by_cases h : data.length < 2 ^ 32
    · exact .of_ok (Writer.run_blob_of_lt sink s h) (if_pos h) rfl rfl
    · exact .of_error (Writer.run_blob_of_le sink s (Nat.le_of_not_lt h)) (if_neg h) rfl rfl
  | certificate e => exact written_certificate e sink s
  | key passwords e => exact written_key passwords hfits sink s

end Item

/-! ## A row of items -/

namespace Sink

/-- What each of a row of writings comes to, in the sink that those in front of it leave. -/
def results : List Item → Bytes → Supply → List (Except Fault Bytes)
  | [], _, _ => []
  | item :: items, sink, s =>
    (write item sink s).1 :: results items (write item sink s).2.1 (write item sink s).2.2

/-- The writings of a row come to the records, and these are what the sink gains. -/
theorem results_and_writeAll {items : List Item} (hfits : ∀ item ∈ items, item.Fits)
    (sink : Bytes) (s : Supply) :
    (results items sink s).map Except.toOption = Item.records s.now s.random items
      ∧ (writeAll items sink s).1
          = sink ++ ((results items sink s).filterMap Except.toOption).flatten := by
  induction items generalizing sink s with
  | nil => exact ⟨rfl, (List.append_nil sink).symm⟩
  | cons item items ih =>
    obtain ⟨hitem, hitems⟩ := List.forall_mem_cons.mp hfits
    have hstep := Item.written hitem sink s
    have hall : writeAll (item :: items) sink s
        = writeAll items (write item sink s).2.1 (write item sink s).2.2 := rfl
    rw [results, hall]
    generalize write item sink s = out at hstep ⊢
    cases hstep with
    | @added r s' hrecord hnow hrandom =>
      obtain ⟨hresults, hsink⟩ := ih hitems (sink ++ r) s'
      rw [hnow, hrandom] at hresults
      refine ⟨?_, ?_⟩
      · rw [Item.records, hrecord, List.map_cons, hresults]
        rfl
      · rw [hsink, List.append_assoc]
        rfl
    | @refused f s' hrecord hnow hrandom =>
      obtain ⟨hresults, hsink⟩ := ih hitems sink s'
      rw [hnow, hrandom] at hresults
      refine ⟨?_, ?_⟩
      · rw [Item.records, hrecord, List.map_cons, hresults]
        rfl
      · rw [hsink]
        rfl

/-- A row of writings, whatever is in the sink, adds the records of those that do not fail, in
order. What each comes to is told by the items, the clock, and the random bytes that are left
for it. One that fails leaves the sink as it is and takes no random bytes. -/
theorem writeAll_adds {items : List Item} (hfits : ∀ item ∈ items, item.Fits) (sink : Bytes)
    (s : Supply) :
    (writeAll items sink s).1 = sink ++ ((results items sink s).filterMap Except.toOption).flatten
      ∧ (results items sink s).map Except.toOption = Item.records s.now s.random items
      ∧ ∀ item ∈ items, ∀ sink₁ s₁ f, (write item sink₁ s₁).1 = .error f →
          (write item sink₁ s₁).2.1 = sink₁ ∧ (write item sink₁ s₁).2.2.random = s₁.random := by
  obtain ⟨hresults, hsink⟩ := results_and_writeAll hfits sink s
  refine ⟨hsink, hresults, ?_⟩
  intro item hitem sink₁ s₁ f hfailed
  have hstep := Item.written (hfits item hitem) sink₁ s₁
  generalize write item sink₁ s₁ = out at hstep hfailed ⊢
  cases hstep with
  | added => exact nomatch hfailed
  | refused _ _ hrandom => exact ⟨rfl, hrandom⟩

/-- A length that is too large, a key, and a key for which no salt is left. -/
def sampleItems : List Item :=
  .length (2 ^ 32) :: Contents.sample.keys.flatMap fun e =>
    [.key Passwords.sample e, .key Passwords.sample e]

/-- Writing the sample behind two bytes: only the first key is added. -/
theorem writeAll_adds_sample :
    (∀ item ∈ sampleItems, item.Fits)
      ∧ (Item.records Supply.sample.now Supply.sample.random sampleItems).map Option.isSome
          = [false, true, false]
      ∧ (results sampleItems [1, 2] Supply.sample).map Except.toOption
          = Item.records Supply.sample.now Supply.sample.random sampleItems
      ∧ (writeAll sampleItems [1, 2] Supply.sample).1
          = [1, 2] ++ ((results sampleItems [1, 2] Supply.sample).filterMap
              Except.toOption).flatten := by
  have hkey : ∀ e ∈ Contents.sample.keys, e.Fits := fun e he =>
    (Contents.storable_sample.keys e he).fits
  have hfits : ∀ item ∈ sampleItems, item.Fits := by
    have hfirst := List.forall_mem_singleton.mp hkey
    exact List.forall_mem_cons.mpr ⟨trivial, List.forall_mem_cons.mpr ⟨hfirst,
      List.forall_mem_singleton.mpr hfirst⟩⟩
  obtain ⟨hsink, hresults, -⟩ := writeAll_adds hfits [1, 2] Supply.sample
  exact ⟨hfits, by decide +kernel, hresults, hsink⟩

end Sink

end Keystore
