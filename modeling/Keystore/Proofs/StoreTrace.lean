import Keystore.Proofs.Console
import Keystore.Proofs.StoreFile

/-!
# What is reported while a file is written

Writing a file reports the stages that it goes through, and in between each entry that has no
moment and each key that has no chain. `Contents.allNotices` is the whole of it. If an entry
cannot be stored, the row of notices ends there: the entry itself is reported as far as it got
(`Record.cutNotices`), and then the stage it belongs to has failed.

`Contents.Traced` has one constructor for each way that this can go, with the entries in front
of the one that fails. Which fault it is does not matter for it.

What a notice says is written out here apart from the program (`Notice.Says`): the mark in front
of its line, the names of stages, the alias in quotes, and numbers in decimal digits.
`Contents.toFile_reports` is the result for a session: the notices of one of these ways are what
writing gives, and the error stream gains a line for each, all of them on request and otherwise
the warnings among them.
-/

namespace Keystore

open Bytes (ascii)

/-! ## What notices say -/

/-- The name of a stage. -/
inductive Stage.IsCalled : Stage → Bytes → Prop
  | start : IsCalled .start (ascii "start")
  | header : IsCalled .header (ascii "header")
  | certs : IsCalled .certs (ascii "certs")
  | keypairs : IsCalled .keypairs (ascii "keypairs")
  | digest : IsCalled .digest (ascii "digest")
  | done : IsCalled .done (ascii "done")
  | failed : IsCalled .failed (ascii "failed")

/-- A number as it is printed. -/
def numeral (n : Nat) : Bytes := ascii (toString n)

/-- An alias as it is printed: in quotes, or if it has more than 64 bytes the first 64 of them
in quotes and behind them how many there are. -/
inductive IsQuoted : Bytes → Bytes → Prop
  | whole (name : Bytes) (hsize : name.length ≤ 64) :
    IsQuoted name (ascii "\"" ++ name ++ ascii "\"")
  | cut (front back : Bytes) (hfront : front.length = 64) (hback : back ≠ []) :
    IsQuoted (front ++ back) (ascii "\"" ++ front ++ ascii "...\" ("
      ++ numeral (64 + back.length) ++ ascii " bytes)")

/-- The text of a notice. -/
inductive Notice.Says : Notice → Bytes → Prop
  | moved {old new : Stage} {before after : Bytes} (hold : old.IsCalled before)
    (hnew : new.IsCalled after) :
    Says (.moved old new) (ascii "pack: " ++ before ++ ascii " -> " ++ after)
  | clockUsed {name quoted : Bytes} (hname : IsQuoted name quoted) :
    Says (.clockUsed name)
      (ascii "entry " ++ quoted ++ ascii " has no timestamp; using current time")
  | emptyChain {name quoted : Bytes} (hname : IsQuoted name quoted) :
    Says (.emptyChain name)
      (ascii "keypair " ++ quoted ++ ascii " has an empty certificate chain")
  | written (certificates keys size : Nat) :
    Says (.written certificates keys size)
      (ascii "pack: wrote " ++ numeral certificates ++ ascii " certificate(s), " ++ numeral keys
        ++ ascii " keypair(s), " ++ numeral size ++ ascii " bytes")
  | extraCertificates (path : Bytes) (count : Nat) (name : Bytes) :
    Says (.extraCertificates path count name)
      (path ++ ascii " holds " ++ numeral count
        ++ ascii " certificates; only the first is stored under \"" ++ name ++ ascii "\"")
  | remark (severity : Severity) (text : Bytes) : Says (.remark severity text) text

/-- What stands in front of a text, in colour or not. -/
def noticeMark : (warning colored : Bool) → Bytes
  | true, true => ascii "\x1b[1;33mWARN: \x1b[0m"
  | true, false => ascii "WARN: "
  | false, true => ascii "\x1b[0;36mINFO: \x1b[0m"
  | false, false => ascii "INFO: "

/-- A line for a notice: its mark, its text, and a line feed. -/
def Notice.IsLine (colored : Bool) (n : Notice) (line : Bytes) : Prop :=
  ∃ text, n.Says text ∧ line = noticeMark n.isWarning colored ++ text ++ [0x0A]

theorem Stage.isCalled_name (stage : Stage) : stage.IsCalled (ascii stage.name) := by
  cases stage <;> constructor

theorem decimal_eq (n : Nat) : Bytes.decimal n = numeral n := by
  unfold Bytes.decimal numeral ascii
  rw [Nat.toString_eq_repr, Nat.repr, String.toList_ofList]

theorem isQuoted_quoted (name : Bytes) : IsQuoted name (Fault.quoted name) := by
  unfold Fault.quoted
  split
  next h => exact .whole name h
  next h =>
    have hlong : 64 < name.length := Nat.lt_of_not_le h
    have hfront : (name.take 64).length = 64 := by
      rw [List.length_take]
      omega
    have hback : name.drop 64 ≠ [] := by
      rw [ne_eq, List.drop_eq_nil_iff]
      exact Nat.not_le.mpr hlong
    have hcut := IsQuoted.cut _ _ hfront hback
    have hsize : 64 + (name.drop 64).length = name.length := by
      rw [List.length_drop]
      omega
    rwa [hsize, List.take_append_drop, ← decimal_eq] at hcut

theorem Notice.says_text (n : Notice) : n.Says n.text := by
  cases n with
  | moved old new => exact .moved old.isCalled_name new.isCalled_name
  | clockUsed name => exact .clockUsed (isQuoted_quoted name)
  | emptyChain name => exact .emptyChain (isQuoted_quoted name)
  | written certificates keys size =>
    simp only [text, decimal_eq]
    exact .written certificates keys size
  | extraCertificates path count name =>
    simp only [text, decimal_eq]
    exact .extraCertificates path count name
  | remark severity text => exact .remark severity text

theorem Notice.isLine_noticeLine (colored : Bool) (n : Notice) :
    n.IsLine colored (Session.noticeLine colored n) := by
  refine ⟨n.text, n.says_text, ?_⟩
  unfold Session.noticeLine
  rw [n.severity_eq]
  cases n.isWarning <;> cases colored <;> rfl

example : Notice.IsLine false (.clockUsed (ascii "k"))
    (ascii "INFO: entry \"k\" has no timestamp; using current time\n") :=
  ⟨_, .clockUsed (.whole _ (by decide)), rfl⟩

theorem Notice.isLine_noticeLines (colored : Bool) (ns : List Notice) :
    List.Forall₂ (IsLine colored) ns (ns.map (Session.noticeLine colored)) := by
  rw [List.forall₂_map_right_iff, List.forall₂_same]
  exact fun n _ => n.isLine_noticeLine colored

variable {passwords : Passwords} {s s' : Supply} {f : Fault}

/-! ## One entry -/

/-- What is reported of an entry whose record does not come about: the alias is looked at before
the moment, and the moment before all else. -/
def Record.cutNotices (name : Bytes) (time : Instant) : List Notice :=
  if Field.textLimit < name.length then [] else clockNotices name time

theorem Record.cutNotices_of_lt {name : Bytes} (h : Field.textLimit < name.length)
    (time : Instant) : cutNotices name time = [] := if_pos h

theorem Record.cutNotices_of_le {name : Bytes} (h : name.length ≤ Field.textLimit)
    (time : Instant) : cutNotices name time = clockNotices name time := if_neg (Nat.not_lt.mpr h)

/-- It is the front of what is reported of the entry otherwise. -/
theorem Record.cutNotices_isPrefix (name : Bytes) (time : Instant) :
    cutNotices name time <+: clockNotices name time := by
  rcases Nat.lt_or_ge Field.textLimit name.length with hlong | hfits
  · rw [cutNotices_of_lt hlong]
    exact List.nil_prefix
  · refine ⟨[], ?_⟩
    rw [List.append_nil, cutNotices_of_le hfits]

/-- A certificate whose record does not come about does not fit. -/
theorem CertificateEntry.notices_of_error {e : CertificateEntry}
    (h : e.record.run.run s = (.error f, s')) :
    ¬ e.Storable ∧ s'.notices = s.notices ++ Record.cutNotices e.name e.time := by
  have hways := e.recorded s
  rw [h] at hways
  cases hways with
  | longName hname =>
    rw [Record.cutNotices_of_lt hname, List.append_nil]
    exact ⟨fun hstorable => Nat.not_lt.mpr hstorable.name hname, rfl⟩
  | oversized hname hder =>
    rw [Record.cutNotices_of_le hname]
    exact ⟨fun hstorable => Nat.not_lt.mpr hstorable.der hder, rfl⟩

/-- A key whose record does not come about cannot be stored, or there is no salt for it. -/
theorem KeyEntry.notices_of_error {e : KeyEntry}
    (h : (e.record passwords).run.run s = (.error f, s')) :
    (e.Storable → s.random.length < KeyProtector.saltSize)
      ∧ s'.notices = s.notices ++ Record.cutNotices e.name e.time := by
  have hrefused : e.Storable → s.random.length < KeyProtector.saltSize := by
    intro hstorable
    by_contra hrandom
    rw [KeyEntry.run_record_eq_ok.mpr ⟨hstorable, Nat.not_lt.mp hrandom, rfl, rfl⟩] at h
    exact nomatch congrArg Prod.fst h
  refine ⟨hrefused, ?_⟩
  have hways := e.recorded passwords s
  rw [h] at hways
  cases hways with
  | longName hname =>
    rw [Record.cutNotices_of_lt hname, List.append_nil]
  | unsupported hname | noPrivatePart hname | noRandomness _ hname | oversized _ _ hname =>
    rw [Record.cutNotices_of_le hname]
    rfl

/-! ## All entries -/

namespace Contents

/-- The notices in front of the records of the certificates. -/
def openingNotices : List Notice := [.moved .start .header, .moved .header .certs]

/-- What writing entries reports, with its result, where some number of random bytes are left:
all there is to report, or the front of that up to the first entry that cannot be stored. -/
inductive Traced (c : Contents) (available : Nat) : Except Fault Bytes → List Notice → Prop
  | complete (file : Bytes) (hstorable : c.Storable)
    (hrandom : KeyProtector.saltSize * c.keys.length ≤ available) :
    Traced c available (.ok file) (c.allNotices file.length)
  | uncounted (f : Fault) (hsize : entryLimit < c.size) :
    Traced c available (.error f) ([.moved .start .header] ++ [.moved .header .failed])
  | certificate (front : List CertificateEntry) (e : CertificateEntry)
    (back : List CertificateEntry) (f : Fault) (hsize : c.size ≤ entryLimit)
    (hsplit : c.certificates = front ++ e :: back) (hfront : ∀ d ∈ front, d.Storable)
    (he : ¬ e.Storable) :
    Traced c available (.error f)
      (openingNotices ++ CertificateEntry.allNotices front ++ Record.cutNotices e.name e.time
        ++ [.moved .certs .failed])
  | key (front : List KeyEntry) (e : KeyEntry) (back : List KeyEntry) (f : Fault)
    (hsize : c.size ≤ entryLimit) (hcertificates : ∀ d ∈ c.certificates, d.Storable)
    (hsplit : c.keys = front ++ e :: back) (hfront : ∀ d ∈ front, d.Storable)
    (hrandom : KeyProtector.saltSize * front.length ≤ available)
    (he : e.Storable → available < KeyProtector.saltSize * (front.length + 1)) :
    Traced c available (.error f)
      (c.frontNotices ++ KeyEntry.allNotices front ++ Record.cutNotices e.name e.time
        ++ [.moved .keypairs .failed])

/-- Writing entries gives the notices of one of these ways. -/
theorem traced_toFile (passwords : Passwords) (c : Contents) (s : Supply) :
    ∃ trace, c.Traced s.random.length ((c.toFile passwords).run.run s).1 trace
      ∧ ((c.toFile passwords).run.run s).2.notices = s.notices ++ trace := by
  rcases Nat.lt_or_ge entryLimit c.size with hmany | hsize
  · rw [run_toFile_of_tooMany hmany]
    exact ⟨_, .uncounted _ hmany, rfl⟩
  have hways := c.recorded passwords s
  generalize (c.toFile passwords).run.run s = out at hways ⊢
  cases hways with
  | written hstorable hrandom => exact ⟨_, .complete _ hstorable hrandom, rfl⟩
  | tooMany hmany => exact absurd hsize (Nat.not_le.mpr hmany)
  | certificate front e back f s₁ hsplit hfront hfail =>
    obtain ⟨he, hnotices⟩ := CertificateEntry.notices_of_error hfail
    refine ⟨_, .certificate front e back f hsize hsplit hfront he, ?_⟩
    rw [Supply.notices_noted, hnotices, Supply.notices_noted, openingNotices]
    simp only [List.append_assoc]
  | key front e back f s₁ hcertificates hsplit hfront hrandom hfail =>
    obtain ⟨hrefused, hnotices⟩ := KeyEntry.notices_of_error hfail
    rw [Supply.random_noted, Supply.random_drawn, List.length_drop] at hrefused
    refine ⟨_, .key front e back f hsize hcertificates hsplit hfront hrandom ?_, ?_⟩
    · intro hstorable
      have hshort := hrefused hstorable
      rw [Nat.mul_succ]
      omega
    · rw [Supply.notices_noted, hnotices, Supply.notices_noted, Supply.notices_drawn]
      simp only [List.append_assoc]

/-- What is reported of a row up to some member is a front of what is reported of the row. -/
theorem append_cut_isPrefix {α : Type} (notices : α → List Notice) {cut : List Notice} {e : α}
    (h : cut <+: notices e) (front back : List α) :
    front.flatMap notices ++ cut <+: (front ++ e :: back).flatMap notices := by
  rw [List.flatMap_append, List.flatMap_cons]
  exact (List.prefix_append_right_inj _).mpr (h.trans (List.prefix_append _ _))

/-- The notices of a failure are a front of all there is to report, and then the failure of one
stage. -/
theorem Traced.cut {c : Contents} {available : Nat} {trace : List Notice}
    (h : c.Traced available (.error f) trace) :
    ∃ cut stage, trace = cut ++ [.moved stage .failed] ∧ ∀ size, cut <+: c.allNotices size := by
  cases h with
  | uncounted =>
    refine ⟨_, _, rfl, fun size => ?_⟩
    exact ⟨_, rfl⟩
  | certificate front e back _ _ hsplit =>
    refine ⟨_, _, rfl, fun size => ?_⟩
    have hrow : CertificateEntry.allNotices front ++ Record.cutNotices e.name e.time
        <+: CertificateEntry.allNotices c.certificates := by
      rw [hsplit]
      exact append_cut_isPrefix (fun e : CertificateEntry => Record.clockNotices e.name e.time)
        (Record.cutNotices_isPrefix e.name e.time) front back
    rw [allNotices, frontNotices]
    simp only [List.append_assoc]
    exact (List.prefix_append_right_inj _).mpr (hrow.trans (List.prefix_append _ _))
  | key front e back _ _ _ hsplit =>
    refine ⟨_, _, rfl, fun size => ?_⟩
    have hentry : Record.cutNotices e.name e.time <+: e.notices :=
      (Record.cutNotices_isPrefix e.name e.time).trans (List.prefix_append _ _)
    have hrow : KeyEntry.allNotices front ++ Record.cutNotices e.name e.time
        <+: KeyEntry.allNotices c.keys := by
      rw [hsplit]
      exact append_cut_isPrefix KeyEntry.notices hentry front back
    rw [allNotices]
    simp only [List.append_assoc]
    exact (List.prefix_append_right_inj _).mpr (hrow.trans (List.prefix_append _ _))

/-- In any session writing entries gives a row of notices: the whole row of stages and entries,
or the front of that up to the first entry that cannot be stored and the failure of its stage.
The error stream gains a line for each that is shown, which is all of them on request and
otherwise the warnings among them. Nothing else is printed. -/
theorem toFile_reports (passwords : Passwords) (c : Contents) (s : Session) :
    ∃ result used, (c.toFile passwords).run.run s.supply = (result, used)
      ∧ c.Traced s.random.length result used.notices
      ∧ ((Shell.task (c.toFile passwords)).run.run s).1 = result.mapError Failure.fault
      ∧ (∃ lines, List.Forall₂ (Notice.IsLine (s.isColored .err))
          (if s.isVerbose then used.notices else used.notices.filter Notice.isWarning) lines
        ∧ ((Shell.task (c.toFile passwords)).run.run s).2.err = s.err ++ lines.flatten)
      ∧ ((Shell.task (c.toFile passwords)).run.run s).2.out = s.out
      ∧ ∀ f, result = .error f → ∃ cut stage, used.notices = cut ++ [.moved stage .failed]
        ∧ ∀ size, cut <+: c.allNotices size := by
  obtain ⟨trace, htraced, hnotices⟩ := traced_toFile passwords c s.supply
  rw [Shell.run_task]
  rcases hrun : (c.toFile passwords).run.run s.supply with ⟨result, used⟩
  rw [hrun] at htraced hnotices
  obtain rfl : used.notices = trace := hnotices
  refine ⟨result, used, rfl, htraced, rfl, ⟨_, Notice.isLine_noticeLines _ _, ?_⟩,
    Session.out_reportAll _ _, ?_⟩
  · rw [← List.flatMap_def]
    exact Session.err_reportAll _ _
  · rintro f rfl
    exact htraced.cut

end Contents

end Keystore
