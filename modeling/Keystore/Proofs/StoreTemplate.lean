import Keystore.Proofs.StoreSeal

/-!
# What varies between files of one key store

Writing the same key store twice need not give the same file: entries without a moment
get the current time, each key is hidden with a new salt, and the trailer covers both.
This module says which bytes these are. The template of a key store is a row of
stretches, of which some are fixed bytes and the others have a size and a source
(`Contents.template`); it depends on the entries and the passwords only. Two files agree
along the template if they have the fixed bytes in common, and the varying ones wherever
their source is the same (`Template.Agrees`).

That two written files agree along the template is shown record by record, each behind
the records in front of it, which have the same size in both. The point at which this could go
wrong is a length in front of a stretch that varies, and these lengths are part of the fixed bytes:
the frame of a protected key depends on the size of what is in it
(`Key.protectedInfo_eq`). The main statement is `Contents.sameButFor_of_run_toFile`.
-/

namespace Keystore

/-- What varying bytes of a file come from. -/
inductive Source where
  /-- The current time, which an entry gets if its moment is not given. -/
  | clock
  /-- The random bytes: a salt, and what is hidden with it. -/
  | random
  /-- Everything in front of the trailer. -/
  | body
deriving DecidableEq

/-- Two supplies have a source in common. -/
def Source.Same (s₁ s₂ : Supply) : Source → Prop
  | clock => s₁.now = s₂.now
  | random => s₁.random = s₂.random
  | body => s₁.now = s₂.now ∧ s₁.random = s₂.random

/-- A stretch of a file. -/
inductive Stretch where
  | fixed (bytes : Bytes)
  | varying (source : Source) (size : Nat)
deriving DecidableEq

/-- For each byte of a stretch where it comes from; nothing for a fixed one. -/
def Stretch.sources : Stretch → List (Option Source)
  | fixed bytes => List.replicate bytes.length none
  | varying source size => List.replicate size (some source)

/-- A row of stretches. -/
abbrev Template := List Stretch

namespace Template

variable {same : Source → Prop} {t t' : Template} {f g f' g' : Bytes}

/-- For each byte of a file where it comes from. -/
def sources (t : Template) : List (Option Source) := t.flatMap Stretch.sources

/-- Two files made along a template. What varies has the same size in both, and is the same
if its source is. -/
inductive Agrees (same : Source → Prop) : Template → Bytes → Bytes → Prop
  | nil : Agrees same [] [] []
  | fixed (bytes : Bytes) {t : Template} {f g : Bytes} (rest : Agrees same t f g) :
    Agrees same (.fixed bytes :: t) (bytes ++ f) (bytes ++ g)
  | varying {source : Source} {size : Nat} {x y : Bytes} {t : Template} {f g : Bytes}
    (hx : x.length = size) (hy : y.length = size) (hsame : same source → x = y)
    (rest : Agrees same t f g) :
    Agrees same (.varying source size :: t) (x ++ f) (y ++ g)

namespace Agrees

/-! ## Rows of stretches -/

theorem single_fixed (bytes : Bytes) : Agrees same [.fixed bytes] bytes bytes := by
  have h : Agrees same [.fixed bytes] (bytes ++ []) (bytes ++ []) := .fixed bytes .nil
  rwa [List.append_nil] at h

theorem single_varying {source : Source} {size : Nat} {x y : Bytes} (hx : x.length = size)
    (hy : y.length = size) (hsame : same source → x = y) :
    Agrees same [.varying source size] x y := by
  have h : Agrees same [.varying source size] (x ++ []) (y ++ []) := .varying hx hy hsame .nil
  rwa [List.append_nil, List.append_nil] at h

theorem append (h : Agrees same t f g) (h' : Agrees same t' f' g') :
    Agrees same (t ++ t') (f ++ f') (g ++ g') := by
  induction h with
  | nil => exact h'
  | fixed bytes _ ih =>
    rw [List.append_assoc, List.append_assoc]
    exact .fixed bytes ih
  | varying hx hy hsame _ ih =>
    rw [List.append_assoc, List.append_assoc]
    exact .varying hx hy hsame ih

/-! ## What agreement says of single bytes -/

theorem length_left (h : Agrees same t f g) : t.sources.length = f.length := by
  induction h with
  | nil => rfl
  | fixed bytes _ ih =>
    rw [sources, List.flatMap_cons, List.length_append, List.length_append, ← ih, Stretch.sources,
      List.length_replicate, sources]
  | varying hx _ _ _ ih =>
    rw [sources, List.flatMap_cons, List.length_append, List.length_append, ← ih, Stretch.sources,
      List.length_replicate, hx, sources]

theorem length_eq (h : Agrees same t f g) : f.length = g.length := by
  induction h with
  | nil => rfl
  | fixed bytes _ ih => rw [List.length_append, List.length_append, ih]
  | varying hx hy _ _ ih => rw [List.length_append, List.length_append, ih, hx, hy]

/-- A byte is the same in both files, or it comes from a source that is not. -/
theorem getElem?_eq_or (h : Agrees same t f g) (i : Nat) :
    f[i]? = g[i]? ∨ ∃ source, ¬ same source ∧ t.sources[i]? = some (some source) := by
  -- behind a stretch it is the byte of the rest
  have hbehind : ∀ (stretch : Stretch) (t : Template) {i : Nat}, stretch.sources.length ≤ i →
      (sources (stretch :: t))[i]? = t.sources[i - stretch.sources.length]? := by
    intro stretch t i hi
    rw [sources, List.flatMap_cons, List.getElem?_append_right hi, sources]
  induction h generalizing i with
  | nil => exact Or.inl rfl
  | fixed bytes _ ih =>
    rcases Nat.lt_or_ge i bytes.length with hfront | hback
    · exact Or.inl (by rw [List.getElem?_append_left hfront, List.getElem?_append_left hfront])
    · rw [List.getElem?_append_right hback, List.getElem?_append_right hback,
        hbehind (.fixed bytes) _ (by rwa [Stretch.sources, List.length_replicate]), Stretch.sources,
        List.length_replicate]
      exact ih (i - bytes.length)
  | @varying source size x y t f g hx hy hsame _ ih =>
    rcases Nat.lt_or_ge i size with hfront | hback
    · by_cases h : same source
      · rw [hsame h, List.getElem?_append_left (by rwa [hy]),
          List.getElem?_append_left (by rwa [hy])]
        exact Or.inl rfl
      · refine Or.inr ⟨source, h, ?_⟩
        rw [sources, List.flatMap_cons, Stretch.sources,
          List.getElem?_append_left (by rwa [List.length_replicate]), List.getElem?_replicate,
          if_pos hfront]
    · rw [List.getElem?_append_right (by rwa [hx]), List.getElem?_append_right (by rwa [hy]), hx,
        hy, hbehind (.varying source size) _ (by rwa [Stretch.sources, List.length_replicate]),
        Stretch.sources, List.length_replicate]
      exact ih (i - size)

/-- Files all of whose sources are the same are the same. -/
theorem eq (h : Agrees same t f g) (hall : ∀ source, some source ∈ t.sources → same source) :
    f = g := by
  refine List.ext_getElem? fun i => (h.getElem?_eq_or i).resolve_right ?_
  rintro ⟨source, hother, hsource⟩
  exact hother (hall source (List.mem_of_getElem? hsource))

end Agrees

end Template

open Template (Agrees)

/-! ## Entries -/

/-- The field for a moment: eight bytes from the clock if it is not given. -/
def Instant.stretch (t : Instant) : Stretch :=
  if t = .unset then .varying .clock 8 else .fixed (Field.time t)

/-- The stretches of a certificate's record. -/
def CertificateEntry.template (e : CertificateEntry) : Template :=
  [.fixed (BigEndian.u32 Record.certificateTag ++ Field.ofText e.name), e.time.stretch,
    .fixed (Record.certificatePart e.der)]

/-- What stands in the frame of a protected key in front of its `n` bytes. -/
def Key.protectedHead (n : Nat) : Bytes :=
  let name := Der.sequence [Der.oid protectorOid, Der.null]
  let mark := Der.Tag.octetString.bytes false ++ Der.lengthField n
  Der.Tag.sequence.bytes true ++ Der.lengthField (name.length + (mark.length + n)) ++ name ++ mark

theorem Key.protectedInfo_eq (blob : Bytes) :
    protectedInfo blob = protectedHead blob.length ++ blob := by
  simp only [protectedInfo, protectedHead, Der.octetString, Der.primitive, Der.sequence,
    Der.constructed, List.flatten_cons, List.flatten_nil, List.append_nil, List.length_append,
    List.append_assoc, Nat.add_assoc]

/-- The stretches of a key's record. Of the key itself the frame and the digest by which
a wrong password shows are fixed; the salt and the hidden bytes are random. -/
def KeyEntry.template (passwords : Passwords) (e : KeyEntry) : Template :=
  let plain := Key.privateInfo .rsa e.secret
  [.fixed (BigEndian.u32 Record.keyTag ++ Field.ofText e.name), e.time.stretch,
    .fixed (Field.ofLength (Key.storedSize e.secret)
      ++ Key.protectedHead (plain.length + (KeyProtector.saltSize + Sha1.size))),
    .varying .random KeyProtector.saltSize, .varying .random plain.length,
    .fixed (KeyProtector.check (Utf16.ofText (passwords.forKey e.name)) plain
      ++ Record.chainPart e.chain)]

section Entries

variable {same : Source → Prop} {now now' : Instant}

theorem Instant.agrees_time (hclock : same .clock → now = now') (t : Instant) :
    Agrees same [t.stretch] (Field.time (t.or now)) (Field.time (t.or now')) := by
  rw [Instant.stretch, Instant.or, Instant.or]
  by_cases h : t = .unset
  · rw [if_pos h, if_pos h, if_pos h]
    refine .single_varying (BigEndian.length_u64 _) (BigEndian.length_u64 _) fun hsame => ?_
    rw [hclock hsame]
  · rw [if_neg h, if_neg h, if_neg h]
    exact .single_fixed _

theorem CertificateEntry.agrees_layout (hclock : same .clock → now = now')
    (e : CertificateEntry) : Agrees same e.template (e.layout now) (e.layout now') := by
  rw [CertificateEntry.layout, CertificateEntry.layout, List.append_assoc (_ ++ _),
    List.append_assoc (_ ++ _)]
  exact .fixed _ ((Instant.agrees_time hclock e.time).append (.single_fixed _))

/-- The stored key, from its length to the digest. -/
theorem KeyEntry.ofBlob_stored (password secret : Bytes) {salt : Bytes}
    (h : salt.length = KeyProtector.saltSize) :
    Field.ofBlob (Key.stored password salt secret)
      = Field.ofLength (Key.storedSize secret)
          ++ Key.protectedHead ((Key.privateInfo .rsa secret).length
            + (KeyProtector.saltSize + Sha1.size))
        ++ (salt ++ (KeyProtector.uncover (Utf16.ofText password) salt (Key.privateInfo .rsa secret)
          ++ KeyProtector.check (Utf16.ofText password) (Key.privateInfo .rsa secret))) := by
  rw [Field.ofBlob, Key.length_stored h, Key.stored, Key.protectedInfo_eq,
    KeyProtector.length_hide h, KeyProtector.hide_eq, List.append_assoc, List.append_assoc]

theorem KeyEntry.agrees_layout (passwords : Passwords) (hclock : same .clock → now = now')
    {salt salt' : Bytes} (hsalt : salt.length = KeyProtector.saltSize)
    (hsalt' : salt'.length = KeyProtector.saltSize) (hrandom : same .random → salt = salt')
    (e : KeyEntry) :
    Agrees same (e.template passwords) (e.layout passwords now salt)
      (e.layout passwords now' salt') := by
  rw [KeyEntry.layout, KeyEntry.layout, KeyEntry.ofBlob_stored _ _ hsalt,
    KeyEntry.ofBlob_stored _ _ hsalt']
  simp only [List.append_assoc]
  rw [← List.append_assoc (BigEndian.u32 _), ← List.append_assoc (BigEndian.u32 _)]
  refine .fixed _ ((Instant.agrees_time hclock e.time).append ?_)
  rw [← List.append_assoc (Field.ofLength _), ← List.append_assoc (Field.ofLength _)]
  refine .fixed _ (.varying hsalt hsalt' hrandom ?_)
  refine .varying (KeyProtector.length_uncover _ _ _) (KeyProtector.length_uncover _ _ _) ?_
    (.single_fixed _)
  intro hsame
  rw [hrandom hsame]

theorem CertificateEntry.agrees_layouts (hclock : same .clock → now = now')
    (es : List CertificateEntry) :
    Agrees same (es.flatMap CertificateEntry.template)
      (es.map (CertificateEntry.layout now)).flatten
      (es.map (CertificateEntry.layout now')).flatten := by
  induction es with
  | nil => exact .nil
  | cons e es ih => exact (e.agrees_layout hclock).append ih

/-- Keys in a row. Each takes the next salt of either supply, so the two walks along the
random bytes keep step. -/
theorem KeyEntry.agrees_layouts (passwords : Passwords) (hclock : same .clock → now = now')
    {random random' : Bytes} {es : List KeyEntry}
    (hsize : KeyProtector.saltSize * es.length ≤ random.length)
    (hsize' : KeyProtector.saltSize * es.length ≤ random'.length)
    (hrandom : same .random → random = random') :
    Agrees same (es.flatMap (KeyEntry.template passwords))
      (KeyEntry.layouts passwords now random es).flatten
      (KeyEntry.layouts passwords now' random' es).flatten := by
  induction es generalizing random random' with
  | nil => exact .nil
  | cons e es ih =>
    rw [List.length_cons, Nat.mul_succ] at hsize hsize'
    have hsalt : ∀ r : Bytes, KeyProtector.saltSize * es.length + KeyProtector.saltSize ≤ r.length →
        (r.take KeyProtector.saltSize).length = KeyProtector.saltSize := by
      intro r hr
      rw [List.length_take]
      omega
    have hleft : ∀ r : Bytes, KeyProtector.saltSize * es.length + KeyProtector.saltSize ≤ r.length →
        KeyProtector.saltSize * es.length ≤ (r.drop KeyProtector.saltSize).length := by
      intro r hr
      rw [List.length_drop]
      omega
    refine (e.agrees_layout passwords hclock (hsalt _ hsize) (hsalt _ hsize') ?_).append
      (ih (hleft _ hsize) (hleft _ hsize') ?_)
    · intro hsame
      rw [hrandom hsame]
    · intro hsame
      rw [hrandom hsame]

end Entries

/-! ## Files -/

namespace Contents

variable {passwords : Passwords} {c : Contents} {s₁ s₂ s₁' s₂' : Supply} {f g : Bytes}

/-- The stretches in front of the trailer. -/
def bodyTemplate (passwords : Passwords) (c : Contents) : Template :=
  .fixed (Header.bytes c.size) :: (c.certificates.flatMap CertificateEntry.template
    ++ c.keys.flatMap (KeyEntry.template passwords))

/-- The stretches of a file. -/
def template (passwords : Passwords) (c : Contents) : Template :=
  c.bodyTemplate passwords ++ [.varying .body Sha1.size]

/-- Two files of one key store are the same but for bytes that vary. Each such byte
comes from a source that the two supplies do not have in common. -/
structure SameButFor (passwords : Passwords) (c : Contents) (s₁ s₂ : Supply) (f g : Bytes) :
    Prop where
  template : Agrees (Source.Same s₁ s₂) (c.template passwords) f g
  length : f.length = g.length
  sources : (c.template passwords).sources.length = f.length
  trailer : ∀ i : Nat, (c.template passwords).sources[i]? = some (some .body) ↔
    f.length - 20 ≤ i ∧ i < f.length
  byte : ∀ i : Nat, f[i]? = g[i]?
    ∨ ∃ source, (c.template passwords).sources[i]? = some (some source)
  sameRandom : s₁.random = s₂.random → ∀ i : Nat, f[i]? = g[i]?
    ∨ (c.template passwords).sources[i]? = some (some .clock) ∨ f.length - 20 ≤ i
  identical : c.keys = [] → (∀ e ∈ c.certificates, e.time ≠ .unset) → f = g

theorem agrees_bodyLayout {same : Source → Prop} {now now' : Instant} {random random' : Bytes}
    (hclock : same .clock → now = now') (hrandom : same .random → random = random')
    (hsize : KeyProtector.saltSize * c.keys.length ≤ random.length)
    (hsize' : KeyProtector.saltSize * c.keys.length ≤ random'.length) :
    Agrees same (c.bodyTemplate passwords) (c.bodyLayout passwords now random)
      (c.bodyLayout passwords now' random') := by
  rw [bodyLayout, bodyLayout, List.append_assoc, List.append_assoc]
  exact .fixed _ ((CertificateEntry.agrees_layouts hclock c.certificates).append
    (KeyEntry.agrees_layouts passwords hclock hsize hsize' hrandom))

/-- In front of the trailer bytes come from the clock, for entries whose moment is not given,
or are random, for keys. -/
theorem mem_sources_bodyTemplate {source : Source}
    (h : some source ∈ (c.bodyTemplate passwords).sources) :
    source = .clock ∧ ((∃ e ∈ c.certificates, e.time = .unset) ∨ ∃ e ∈ c.keys, e.time = .unset)
      ∨ source = .random ∧ c.keys ≠ [] := by
  obtain ⟨stretch, hstretch, hsource⟩ := List.mem_flatMap.mp h
  have hfixed : ∀ bytes, stretch ≠ .fixed bytes := by
    rintro bytes rfl
    exact nomatch List.eq_of_mem_replicate hsource
  have hvarying : ∀ {other size}, stretch = .varying other size → source = other := by
    rintro other size rfl
    exact Option.some.inj (List.eq_of_mem_replicate hsource)
  have htime : ∀ {t : Instant}, stretch = t.stretch → source = .clock ∧ t = .unset := by
    intro t ht
    rw [Instant.stretch] at ht
    split at ht
    next hunset => exact ⟨hvarying ht, hunset⟩
    next => exact absurd ht (hfixed _)
  rw [bodyTemplate, List.mem_cons, List.mem_append] at hstretch
  rcases hstretch with hheader | hcertificate | hkey
  · exact absurd hheader (hfixed _)
  · obtain ⟨e, he, hfield⟩ := List.mem_flatMap.mp hcertificate
    rw [CertificateEntry.template] at hfield
    simp only [List.mem_cons, List.not_mem_nil, or_false, hfixed, false_or] at hfield
    obtain ⟨hclock, hunset⟩ := htime hfield
    exact Or.inl ⟨hclock, Or.inl ⟨e, he, hunset⟩⟩
  · obtain ⟨e, he, hfield⟩ := List.mem_flatMap.mp hkey
    rw [KeyEntry.template] at hfield
    simp only [List.mem_cons, List.not_mem_nil, or_false, hfixed, false_or] at hfield
    rcases hfield with hfield | hfield | hfield
    · obtain ⟨hclock, hunset⟩ := htime hfield
      exact Or.inl ⟨hclock, Or.inr ⟨e, he, hunset⟩⟩
    · exact Or.inr ⟨hvarying hfield, List.ne_nil_of_mem he⟩
    · exact Or.inr ⟨hvarying hfield, List.ne_nil_of_mem he⟩

/-- The bytes that come from everything in front of them are the last ones. -/
theorem getElem?_sources_eq_body {n : Nat} (h : (c.bodyTemplate passwords).sources.length = n)
    (i : Nat) : (c.template passwords).sources[i]? = some (some .body) ↔ n ≤ i ∧ i < n + 20 := by
  have hsources : (c.template passwords).sources
      = (c.bodyTemplate passwords).sources ++ List.replicate 20 (some .body) := by
    rw [template, Template.sources, List.flatMap_append]
    rfl
  rw [hsources]
  rcases Nat.lt_or_ge i n with hfront | hback
  · rw [List.getElem?_append_left (by rwa [h])]
    constructor
    · intro hi
      rcases mem_sources_bodyTemplate (List.mem_of_getElem? hi) with ⟨hclock, -⟩ | ⟨hrandom, -⟩
      · exact nomatch hclock
      · exact nomatch hrandom
    · rintro ⟨hle, -⟩
      exact absurd hfront (Nat.not_lt.mpr hle)
  · rw [List.getElem?_append_right (by rwa [h]), h, List.getElem?_replicate]
    by_cases hi : i - n < 20
    · rw [if_pos hi]
      exact ⟨fun _ => ⟨hback, by omega⟩, fun _ => rfl⟩
    · rw [if_neg hi]
      constructor
      · intro hnone
        exact nomatch hnone
      · rintro ⟨-, hlt⟩
        exact absurd hlt (by omega)

/-- Two files of one key store agree along its template, whatever clock and random bytes were at
hand. -/
theorem sameButFor_of_run_toFile (h₁ : (c.toFile passwords).run.run s₁ = (.ok f, s₁'))
    (h₂ : (c.toFile passwords).run.run s₂ = (.ok g, s₂')) :
    c.SameButFor passwords s₁ s₂ f g := by
  obtain ⟨-, hsize₁, rfl, -⟩ := run_toFile_eq_ok.mp h₁
  obtain ⟨-, hsize₂, rfl, -⟩ := run_toFile_eq_ok.mp h₂
  have hbody : Agrees (Source.Same s₁ s₂) (c.bodyTemplate passwords)
      (c.bodyLayout passwords s₁.now s₁.random) (c.bodyLayout passwords s₂.now s₂.random) :=
    agrees_bodyLayout id id hsize₁ hsize₂
  have hfile : Agrees (Source.Same s₁ s₂) (c.template passwords)
      (c.layout passwords s₁.now s₁.random) (c.layout passwords s₂.now s₂.random) := by
    refine hbody.append (.single_varying Trailer.length_make Trailer.length_make ?_)
    rintro ⟨hnow, hrandom⟩
    rw [hnow, hrandom]
  have hlength : (c.layout passwords s₁.now s₁.random).length
      = (c.bodyLayout passwords s₁.now s₁.random).length + 20 := by
    rw [layout, List.length_append, Trailer.length_make]
  have htrailer : ∀ i : Nat, (c.template passwords).sources[i]? = some (some .body) ↔
      (c.layout passwords s₁.now s₁.random).length - 20 ≤ i
        ∧ i < (c.layout passwords s₁.now s₁.random).length := by
    intro i
    rw [getElem?_sources_eq_body hbody.length_left, hlength, Nat.add_sub_cancel]
  refine ⟨hfile, hfile.length_eq, hfile.length_left, htrailer, ?_, ?_, ?_⟩
  · intro i
    refine (hfile.getElem?_eq_or i).imp_right ?_
    rintro ⟨source, -, hsource⟩
    exact ⟨source, hsource⟩
  · intro hrandom i
    refine (hfile.getElem?_eq_or i).imp_right ?_
    rintro ⟨source, hother, hsource⟩
    cases source with
    | clock => exact Or.inl hsource
    | random => exact absurd hrandom hother
    | body => exact Or.inr ((htrailer i).mp hsource).1
  · intro hkeys htimes
    have hsame : c.bodyLayout passwords s₁.now s₁.random
        = c.bodyLayout passwords s₂.now s₂.random := by
      refine hbody.eq fun source hsource => ?_
      rcases mem_sources_bodyTemplate hsource with ⟨-, ⟨e, he, hunset⟩ | ⟨e, he, -⟩⟩ | ⟨-, hsome⟩
      · exact absurd hunset (htimes e he)
      · rw [hkeys] at he
        exact absurd he List.not_mem_nil
      · exact absurd hkeys hsome
    rw [layout, layout, hsame]

/-- The sample written twice, at different times and with different salts. -/
theorem sameButFor_sample :
    ∃ f g s₁' s₂',
      (Contents.sample.toFile Passwords.sample).run.run Supply.sample = (.ok f, s₁')
      ∧ (Contents.sample.toFile Passwords.sample).run.run
          ⟨⟨2000000⟩, List.replicate 21 9, false, []⟩ = (.ok g, s₂')
      ∧ Contents.sample.SameButFor Passwords.sample Supply.sample
          ⟨⟨2000000⟩, List.replicate 21 9, false, []⟩ f g := by
  have h₁ : (Contents.sample.toFile Passwords.sample).run.run Supply.sample = (.ok _, _) :=
    run_toFile_eq_ok.mpr ⟨storable_sample, by decide, rfl, rfl⟩
  have h₂ : (Contents.sample.toFile Passwords.sample).run.run
      ⟨⟨2000000⟩, List.replicate 21 9, false, []⟩ = (.ok _, _) :=
    run_toFile_eq_ok.mpr ⟨storable_sample, by decide, rfl, rfl⟩
  exact ⟨_, _, _, _, h₁, h₂, sameButFor_of_run_toFile h₁ h₂⟩

end Contents

end Keystore
