import Keystore.Certificate
import Keystore.Proofs.DerRules

/-!
# Certificates in distinguished form

A certificate that was read is passed on in one of two ways: as the bytes that it was read from, or
written anew around its signed part. For a certificate in distinguished form that makes no
difference (`IsCanonical.exists_read?`). What such a form is, `IsCanonical` says by the
distinguished rules, and only as far as the certificate is written anew: its signed part may
have any form in which it is accepted.
-/

namespace Keystore

open Der

/-- The parts of a sequence, by the distinguished rules. -/
def Der.Element.parts? (e : Element) : Option (List Element) :=
  if e.tag = Tag.sequence ∧ e.constructed then readAll? .distinguished e.content else none

/-- By the basic rules a sequence has the same parts. -/
theorem Der.Element.sequence?_of_parts? {e : Element} {es : List Element}
    (h : e.parts? = some es) : e.sequence? = some es := by
  unfold Element.parts? at h
  split at h
  next hsequence =>
    unfold Element.sequence? Element.row?
    rw [if_pos hsequence.2, if_pos hsequence.1]
    exact readAll?_basic h
  next => exact nomatch h

/-- A sequence is written anew from its parts. -/
theorem Der.Element.framed_of_parts? {e : Element} {es : List Element} (h : e.parts? = some es) :
    framed e.tag e.constructed e.content = sequence (es.map Element.raw)
      ∧ ∀ e ∈ es, e.tag.number < longTag → e.raw = framed e.tag e.constructed e.content := by
  unfold Element.parts? at h
  split at h
  next hsequence =>
    obtain ⟨hcontent, hraw⟩ := eq_of_readAll? h
    refine ⟨?_, hraw⟩
    rw [hsequence.1, hsequence.2, hcontent]
    rfl
  next => exact nomatch h

theorem Der.Element.tag_of_parts? {e : Element} {es : List Element} (h : e.parts? = some es) :
    e.tag = Tag.sequence := by
  unfold Element.parts? at h
  split at h
  next hsequence => exact hsequence.1
  next => exact nomatch h

/-- An object identifier is written anew from its content. -/
theorem Der.Element.framed_of_oid? {e : Element} {content : Bytes} (h : e.oid? = some content) :
    framed e.tag e.constructed e.content = Der.oid content ∧ e.tag = Tag.oid := by
  unfold Element.oid? at h
  split at h
  next hoid =>
    obtain rfl := Option.some.inj h
    obtain ⟨htag, hprimitive, -⟩ := hoid
    rw [Bool.not_eq_true'] at hprimitive
    refine ⟨?_, htag⟩
    rw [htag, hprimitive]
    rfl
  next => exact nomatch h

namespace AlgorithmIdentifier

/-- An algorithm in distinguished form: its name, and perhaps parameters that are their own
distinguished form. -/
inductive IsCanonical (e : Element) : AlgorithmIdentifier → Prop
  | bare {name : Element} {oid : Bytes} (hparts : e.parts? = some [name])
    (hname : name.oid? = some oid) : IsCanonical e ⟨oid, none⟩
  | parametrized {name parameters : Element} {oid : Bytes}
    (hparts : e.parts? = some [name, parameters]) (hname : name.oid? = some oid)
    (hvalue : parameters.value? = some parameters.raw) : IsCanonical e ⟨oid, some parameters⟩

variable {e : Element} {a : AlgorithmIdentifier}

theorem IsCanonical.ofElement?_eq (h : IsCanonical e a) : ofElement? e = some a := by
  cases h with
  | bare hparts hname =>
    simp only [ofElement?, Element.sequence?_of_parts? hparts, hname]
  | parametrized hparts hname hvalue =>
    simp only [ofElement?, Element.sequence?_of_parts? hparts, hname, hvalue, Option.isSome_some,
      if_true]

theorem IsCanonical.encode_eq (h : IsCanonical e a) :
    a.encode = framed e.tag e.constructed e.content := by
  cases h with
  | bare hparts hname =>
    obtain ⟨hframed, hraw⟩ := Element.framed_of_parts? hparts
    obtain ⟨hoid, htag⟩ := Element.framed_of_oid? hname
    have hfirst := hraw _ List.mem_cons_self (by rw [htag]; decide)
    rw [hframed, encode, List.map_singleton, hfirst, hoid]
    rfl
  | parametrized hparts hname hvalue =>
    obtain ⟨hframed, hraw⟩ := Element.framed_of_parts? hparts
    obtain ⟨hoid, htag⟩ := Element.framed_of_oid? hname
    have hfirst := hraw _ List.mem_cons_self (by rw [htag]; decide)
    rw [hframed, encode, List.map_cons, List.map_singleton, hfirst, hoid, Option.bind_some, hvalue]
    rfl

end AlgorithmIdentifier

namespace Certificate

/-- A certificate in distinguished form, from its first byte to its last: a signed part, the
algorithm of the signature, and a plain string of bits, those that do not count being zero. -/
inductive IsCanonical (c : Bytes) : Prop
  | intro {whole signed algorithm signature : Element} {a : AlgorithmIdentifier} {bits : BitString}
    (hwhole : readOne? .distinguished c = some whole)
    (hparts : whole.parts? = some [signed, algorithm, signature])
    (hsigned : isSigned signed = true)
    (halgorithm : AlgorithmIdentifier.IsCanonical algorithm a)
    (hplain : signature.constructed = false) (hbits : signature.bitString? = some bits)
    (hcontent : bits.content = signature.content) : IsCanonical c

/-- A certificate in distinguished form is read off the front of any bytes. It is the bytes
that it was read from, and also what is written anew. -/
theorem IsCanonical.exists_read? {c : Bytes} (h : IsCanonical c) (t : Bytes) :
    ∃ certificate, read? (c ++ t) = some certificate ∧ certificate.raw = c
      ∧ certificate.encode = c := by
  obtain @⟨whole, signed, algorithm, signature, a, bits, hwhole, hparts, hsigned, halgorithm,
    hplain, hbits, hcontent⟩ := h
  have hread := read?_of_readOne? hwhole
  have hraw : whole.raw = c := by
    have hc := eq_of_read? hread
    rw [List.append_nil] at hc
    exact hc.symm
  have hframed : c = Der.sequence [signed.raw, algorithm.raw, signature.raw] := by
    rw [← hraw, raw_of_read? hread (by rw [Element.tag_of_parts? hparts]; decide),
      (Element.framed_of_parts? hparts).1]
    rfl
  obtain ⟨-, hrows⟩ := Element.framed_of_parts? hparts
  have hencoded : a.encode = algorithm.raw := by
    have htag : algorithm.tag = Tag.sequence := by
      cases halgorithm with
      | bare hparts _ => exact Element.tag_of_parts? hparts
      | parametrized hparts _ _ => exact Element.tag_of_parts? hparts
    rw [halgorithm.encode_eq, hrows algorithm (by simp) (by rw [htag]; decide)]
  have hsignature : primitive Tag.bitString bits.content = signature.raw := by
    have htag : signature.tag = Tag.bitString := by
      unfold Element.bitString? Element.bitsUnder? at hbits
      split at hbits
      next htag => exact htag
      next => exact nomatch hbits
    rw [hrows signature (by simp) (by rw [htag]; decide), htag, hplain, hcontent]
    rfl
  refine ⟨⟨c, signed.raw, a, bits⟩, ?_, rfl, ?_⟩
  · rw [read?, read?_basic hread t, Option.bind_some]
    simp only [ofElement?, Element.sequence?_of_parts? hparts, halgorithm.ofElement?_eq, hbits,
      hsigned, if_true, hraw]
  · rw [encode]
    dsimp only
    rw [hencoded, hsignature, ← hframed]

end Certificate

end Keystore
