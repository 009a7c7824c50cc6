import AddressLookup.Config
import AddressLookup.Proofs.Cache.History
import AddressLookup.Proofs.Instant.Arithmetic

/-! How long a document is served. The number of days of the settings always makes a lifetime, and counted in
nanoseconds without bound it tells exactly when a document expires. A lifetime that ends beyond the last
instant ends at none, so that there is no expiry is no loss. -/

namespace AddressLookup

namespace Lifetime

def longest : Int :=
  9223372036854775807 * 1000000

def IsRepresentable (l : Lifetime) : Prop :=
  -longest ≤ l.nanos ∧ l.nanos ≤ longest

theorem isRepresentable_ofDays (days : UInt32) : (ofDays days.toNat).IsRepresentable := by
  have hdays := days.toNat_lt
  simp only [IsRepresentable, ofDays, longest, secondsPerDay, nanosPerSecond]
  omega

theorem nanos_ofDays_nonneg (days : Nat) : 0 ≤ (ofDays days).nanos := by
  simp only [ofDays, secondsPerDay, nanosPerSecond]
  omega

end Lifetime

namespace Instant

variable {now t : Instant} {l : Lifetime}

theorem forall_add?_not_before_iff (hnow : now.isLeapSecond = false) (ht : t.isLeapSecond = false)
    (hl : 0 ≤ l.nanos) :
    (∀ expires ∈ now.add? l, expires.before t = false) ↔ t.nanoseconds ≤ now.nanoseconds + l.nanos := by
  have hfirst := (nanoseconds_bounds hnow).1
  have hlast := (nanoseconds_bounds ht).2
  rw [add?_of_not_leap hnow]
  by_cases hrange : now.nanoseconds + l.nanos ≤ lastNanosecond
  · obtain ⟨expires, hexpires, hleap, hsum⟩ :=
      exists_ofNanoseconds? (n := now.nanoseconds + l.nanos) (by omega) hrange
    rw [hexpires, ← hsum, ← Int.not_lt, ← before_iff_of_not_leap hleap ht, Bool.not_eq_true]
    simp
  · -- No instant is as late as the sum.
    rw [ofNanoseconds?_eq_none (.inr (Int.not_le.1 hrange))]
    exact iff_of_true (fun _ h => by cases h) (by omega)

theorem add?_eq_none_iff (hnow : now.isLeapSecond = false) (hl : 0 ≤ l.nanos) :
    now.add? l = none ↔ ∀ u : Instant, u.isLeapSecond = false → u.nanoseconds < now.nanoseconds + l.nanos := by
  have hfirst := (nanoseconds_bounds hnow).1
  rw [add?_of_not_leap hnow]
  constructor
  · intro hnone u hu
    by_contra hsum
    have hlast := (nanoseconds_bounds hu).2
    obtain ⟨expires, hexpires, -⟩ :=
      exists_ofNanoseconds? (n := now.nanoseconds + l.nanos) (by omega) (by omega)
    rw [hexpires] at hnone
    cases hnone
  · intro hall
    have hlast : lastNanosecond < now.nanoseconds + l.nanos :=
      hall ⟨lastSecond, nanosPerSecond - 1, by decide, by decide⟩ (by decide)
    exact ofNanoseconds?_eq_none (.inr hlast)

end Instant

namespace Cache

theorem get?_set_self (c : Cache) (key : String) (data : Json) (now t : Instant) :
    (c.set key data now).get? key t = Entry.visible? t ⟨c.expiryAt now, data⟩ := by
  rw [get?_set, if_pos rfl]

/-- With any number of days in the settings the lifetime can be represented, and a document is served up to and
including the last nanosecond of its days, reckoned exactly. It is stored without an expiry just when this
is later than all instants. -/
theorem get?_set_of_days (settings : Config) (days : UInt32) (path : Option Path) (entries : KeyMap Entry)
    (key : String) (data : Json) {now t : Instant} (hnow : now.isLeapSecond = false)
    (ht : t.isLeapSecond = false) :
    let lifetime := { settings with expirationDays := some days }.lifetime
    let cache : Cache := ⟨path, lifetime, entries⟩
    let span : Int := days.toNat * 86400 * 1000000000
    (∃ l, lifetime = some l ∧ l.IsRepresentable ∧ l.nanos = span) ∧
      ((cache.set key data now).get? key t = some data ↔ t.nanoseconds ≤ now.nanoseconds + span) ∧
      (¬ t.nanoseconds ≤ now.nanoseconds + span → (cache.set key data now).get? key t = none) ∧
      (cache.expiryAt now = none ↔
        ∀ u : Instant, u.isLeapSecond = false → u.nanoseconds < now.nanoseconds + span) := by
  intro lifetime cache span
  have hspan : (Lifetime.ofDays days.toNat).nanos = span := (Int.mul_assoc _ _ _).symm
  have hnonneg := Lifetime.nanos_ofDays_nonneg days.toNat
  have hexpiry : cache.expiryAt now = now.add? (.ofDays days.toNat) := rfl
  have hserved : (cache.set key data now).get? key t = some data ↔
      t.nanoseconds ≤ now.nanoseconds + span := by
    rw [get?_set_self, visible?_eq_some_iff, hexpiry, Instant.forall_add?_not_before_iff hnow ht hnonneg, hspan]
    exact and_iff_right rfl
  refine ⟨⟨_, rfl, Lifetime.isRepresentable_ofDays days, hspan⟩, hserved, fun hlate => ?_, ?_⟩
  · rw [get?_set_self]
    refine Option.eq_none_iff_forall_ne_some.2 fun other hother => hlate (hserved.1 ?_)
    obtain ⟨rfl, -⟩ := visible?_eq_some_iff.1 hother
    rw [get?_set_self, hother]
  · rw [hexpiry, Instant.add?_eq_none_iff hnow hnonneg, hspan]

/-- A document whose day ends with the last nanosecond but one is served up to that and not in the last;
with one day more, or with as many as can be, it never expires. -/
theorem get?_set_of_last_days :
    let now : Instant := ⟨Instant.lastSecond - 86400, 999999998, by decide, by decide⟩
    let last (nanos : Fin 1000000000) : Instant := ⟨Instant.lastSecond, nanos, by decide, .inl nanos.isLt⟩
    let cache (days : UInt32) : Cache :=
      ⟨none, { Config.standard with expirationDays := some days }.lifetime, ∅⟩
    now.isLeapSecond = false ∧ (last 999999998).isLeapSecond = false ∧ (last 999999999).isLeapSecond = false ∧
      ((cache 1).set "k" .null now).get? "k" (last 999999998) = some .null ∧
      ((cache 1).set "k" .null now).get? "k" (last 999999999) = none ∧
      (cache 1).expiryAt now ≠ none ∧ (cache 2).expiryAt now = none ∧
      ((cache 4294967295).set "k" .null now).get? "k" (last 999999999) = some .null := by
  intro now last cache
  have hnow : now.isLeapSecond = false := by decide
  have hlate : (last 999999998).isLeapSecond = false := by decide
  have hlast : (last 999999999).isLeapSecond = false := by decide
  have hday (t : Instant) (ht : t.isLeapSecond = false) :=
    get?_set_of_days .standard 1 none ∅ "k" .null hnow ht
  have htwo := get?_set_of_days .standard 2 none ∅ "k" .null hnow hlast
  have hmany := get?_set_of_days .standard 4294967295 none ∅ "k" .null hnow hlast
  refine ⟨hnow, hlate, hlast, (hday _ hlate).2.1.2 (by decide), (hday _ hlast).2.2.1 (by decide), fun hnone => ?_,
    htwo.2.2.2.2 fun u hu => ?_, hmany.2.1.2 (by decide)⟩
  · exact absurd ((hday _ hlast).2.2.2.1 hnone _ hlast) (by decide)
  · have hbound := (Instant.nanoseconds_bounds hu).2
    exact Int.lt_of_le_of_lt hbound (by decide)

end Cache

end AddressLookup
