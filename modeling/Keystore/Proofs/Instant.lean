import Keystore.Instant

/-!
# Milliseconds and nanoseconds

A moment counts nanoseconds, and is given and stored in milliseconds. Cutting off to
milliseconds is division toward zero of the numbers meant, without any overflow
(`toInt_millis`), and so it keeps moments in order (`toInt_millis_le`). Up to
`millisLimit` the way from milliseconds to a moment and back loses nothing
(`toNat_millis_ofMillis`).
-/

namespace Keystore.Instant

/-- The most milliseconds whose nanoseconds fit 64 bits. -/
abbrev millisLimit : Nat := 9223372036854

theorem toInt_million : (1000000 : Int64).toInt = 1000000 := by decide

/-- The milliseconds of a moment, as numbers. -/
theorem toInt_millis (t : Instant) : t.millis.toInt = t.nanos.toInt.tdiv 1000000 := by
  unfold millis
  rw [Int64.toInt_div, toInt_million]
  have hlow := t.nanos.le_toInt
  have hhigh := t.nanos.toInt_lt
  have hsize : (t.nanos.toInt.tdiv 1000000).natAbs = t.nanos.toInt.natAbs / 1000000 :=
    Int.natAbs_tdiv _ _
  apply Int.bmod_eq_of_le
  · omega
  · omega

/-- What is cut off is less than a millisecond. -/
theorem natAbs_nanos_sub_lt (t : Instant) :
    (t.nanos.toInt - t.millis.toInt * 1000000).natAbs < 1000000 := by
  rw [toInt_millis, Int.mul_comm, ← Int.tmod_def, Int.natAbs_tmod]
  exact Nat.mod_lt _ (by decide)

/-- Moments before 1970 stay there, and later ones too, if they do not become the start. -/
theorem sign_millis (t : Instant) :
    t.millis.toInt = 0 ∨ t.millis.toInt.sign = t.nanos.toInt.sign := by
  have hsign := Int.sign_tdiv t.nanos.toInt 1000000
  rw [← toInt_millis] at hsign
  split at hsign
  · exact .inl (Int.sign_eq_zero_iff_zero.mp hsign)
  · exact .inr (hsign.trans (Int.mul_one _))

/-- A later moment has at least as many milliseconds. -/
theorem toInt_millis_le {t u : Instant} (h : t.nanos ≤ u.nanos) :
    t.millis.toInt ≤ u.millis.toInt := by
  rw [toInt_millis, toInt_millis]
  exact Int.tdiv_le_tdiv (by decide) (Int64.le_iff_toInt_le.mp h)

theorem toInt_nanos_ofMillis {ms : Nat} (h : ms ≤ millisLimit) :
    (ofMillis (Int64.ofInt ms)).nanos.toInt = ms * 1000000 := by
  have hms : ms ≤ 9223372036854 := h
  show (Int64.ofInt ms * 1000000).toInt = ms * 1000000
  rw [Int64.toInt_mul, toInt_million, Int64.toInt_ofInt_of_le (by omega) (by omega)]
  apply Int.bmod_eq_of_le
  · omega
  · omega

/-- Milliseconds come back as they were. -/
theorem toNat_millis_ofMillis {ms : Nat} (h : ms ≤ millisLimit) :
    (ofMillis (Int64.ofInt ms)).millis.toUInt64.toNat = ms := by
  have hmillis : (ofMillis (Int64.ofInt ms)).millis.toInt = ms := by
    rw [toInt_millis, toInt_nanos_ofMillis h, Int.mul_tdiv_cancel _ (by decide)]
  have hpos : 0 ≤ (ofMillis (Int64.ofInt ms)).millis := by
    rw [Int64.le_iff_toInt_le, hmillis]
    exact Int.natCast_nonneg ms
  rw [Int64.toNat_toUInt64_of_le hpos, Int64.toNatClampNeg, hmillis]
  rfl

/-- A positive count of milliseconds is a moment that is given. -/
theorem ofMillis_ne_unset {ms : Nat} (hpos : 0 < ms) (h : ms ≤ millisLimit) :
    ofMillis (Int64.ofInt ms) ≠ unset := by
  intro hunset
  have hnanos := toInt_nanos_ofMillis h
  rw [hunset] at hnanos
  have hzero : unset.nanos.toInt = 0 := by decide
  omega

/-- A text that is accepted is a positive number to its end. -/
theorem exists_of_parse {text : Bytes} {t : Instant} (h : parse text = .ok t) :
    ∃ ms : Nat, leadingNumber? text = some ((ms : Int), []) ∧ 0 < ms
      ∧ t = ofMillis (Int64.ofInt ms) := by
  unfold parse at h
  split at h
  · exact nomatch h
  · next ms rest hnumber =>
    split at h
    · exact nomatch h
    · split at h
      · exact nomatch h
      · next hrest =>
        split at h
        · exact nomatch h
        · next hpos =>
          obtain rfl := Except.ok.inj h
          obtain ⟨n, rfl⟩ := Int.eq_ofNat_of_zero_le (by omega : 0 ≤ ms)
          rw [Decidable.not_not.mp hrest] at hnumber
          exact ⟨n, hnumber, by omega, rfl⟩

end Keystore.Instant
