import AddressLookup.Instant.Basic

/-! Instants as counts of nanoseconds. Outside leap seconds the order of instants is that of their counts, and
a lifetime later is the instant of the exact sum, or none if the sum is not the count of an instant. -/

namespace AddressLookup.Instant

def nanoseconds (t : Instant) : Int :=
  nanosecondsAt t.seconds t.nanos

def firstNanosecond : Int :=
  nanosecondsAt firstSecond 0

def lastNanosecond : Int :=
  nanosecondsAt lastSecond (nanosPerSecond - 1)

section

variable {s t : Instant}

theorem nanos_lt_of_not_leap (h : t.isLeapSecond = false) : t.nanos < nanosPerSecond :=
  Nat.lt_of_not_le (of_decide_eq_false h)

theorem nanoseconds_bounds (h : t.isLeapSecond = false) :
    firstNanosecond ≤ t.nanoseconds ∧ t.nanoseconds ≤ lastNanosecond := by
  have hnanos := nanos_lt_of_not_leap h
  have hseconds := t.inRange
  simp only [firstNanosecond, lastNanosecond, nanoseconds, nanosecondsAt, nanosPerSecond] at *
  omega

theorem before_iff_of_not_leap (hs : s.isLeapSecond = false) (ht : t.isLeapSecond = false) :
    s.before t = true ↔ s.nanoseconds < t.nanoseconds := by
  have hs := nanos_lt_of_not_leap hs
  have ht := nanos_lt_of_not_leap ht
  rw [before_iff]
  simp only [nanoseconds, nanosecondsAt, nanosPerSecond] at *
  omega

end

section

variable {n : Int}

theorem exists_ofNanoseconds? (hfirst : firstNanosecond ≤ n) (hlast : n ≤ lastNanosecond) :
    ∃ t, ofNanoseconds? n = some t ∧ t.isLeapSecond = false ∧ t.nanoseconds = n := by
  simp only [firstNanosecond, lastNanosecond, nanosecondsAt, nanosPerSecond] at hfirst hlast
  have hseconds : firstSecond ≤ n / nanosPerSecond ∧ n / nanosPerSecond ≤ lastSecond := by
    simp only [nanosPerSecond]
    omega
  have hnanos : (n % nanosPerSecond).toNat < nanosPerSecond := by
    simp only [nanosPerSecond]
    omega
  refine ⟨⟨_, _, hseconds, .inl hnanos⟩, ?_, decide_eq_false (Nat.not_le_of_lt hnanos), ?_⟩
  · rw [ofNanoseconds?, ofParts?, dif_pos hseconds, dif_pos (.inl hnanos)]
  · simp only [nanoseconds, nanosecondsAt, nanosPerSecond]
    omega

theorem ofNanoseconds?_eq_none (h : n < firstNanosecond ∨ lastNanosecond < n) : ofNanoseconds? n = none := by
  have hseconds : ¬ (firstSecond ≤ n / nanosPerSecond ∧ n / nanosPerSecond ≤ lastSecond) := by
    simp only [firstNanosecond, lastNanosecond, nanosecondsAt, nanosPerSecond] at h ⊢
    omega
  rw [ofNanoseconds?, ofParts?, dif_neg hseconds]

end

theorem add?_of_not_leap {t : Instant} (h : t.isLeapSecond = false) (l : Lifetime) :
    t.add? l = ofNanoseconds? (t.nanoseconds + l.nanos) := by
  simp only [add?, h]
  rfl

end AddressLookup.Instant
