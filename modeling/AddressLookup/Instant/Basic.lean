import AddressLookup.Instant.Date

/-!
Points in time in UTC to the nanosecond, from year -262143 to year 262142. A leap second belongs to the
second before it and counts its nanoseconds on from one billion.
-/

namespace AddressLookup

def nanosPerSecond : Nat := 1000000000

def secondsPerDay : Int := 86400

namespace Instant

/-- The first second of year -262143. -/
def firstSecond : Int := -8334601228800

/-- The last second of year 262142. -/
def lastSecond : Int := 8210266876799

end Instant

structure Instant where
  seconds : Int
  nanos : Nat
  inRange : Instant.firstSecond ≤ seconds ∧ seconds ≤ Instant.lastSecond
  nanos_lt : nanos < nanosPerSecond ∨ seconds % 60 = 59 ∧ nanos < 2 * nanosPerSecond
  deriving DecidableEq, Repr

/-- How long an entry of a cache lives, in nanoseconds; it may have ended before it began. -/
structure Lifetime where
  nanos : Int
  deriving DecidableEq, Repr

def Lifetime.ofDays (days : Nat) : Lifetime :=
  ⟨days * (secondsPerDay * nanosPerSecond)⟩

namespace Instant

def ofParts? (seconds : Int) (nanos : Nat) : Option Instant :=
  if hs : firstSecond ≤ seconds ∧ seconds ≤ lastSecond then
    if hn : nanos < nanosPerSecond ∨ seconds % 60 = 59 ∧ nanos < 2 * nanosPerSecond then
      some ⟨seconds, nanos, hs, hn⟩
    else none
  else none

def ofNanoseconds? (total : Int) : Option Instant :=
  ofParts? (total / nanosPerSecond) (total % nanosPerSecond).toNat

def isLeapSecond (t : Instant) : Bool :=
  nanosPerSecond ≤ t.nanos

def before (s t : Instant) : Bool :=
  s.seconds < t.seconds || (s.seconds = t.seconds && s.nanos < t.nanos)

theorem before_iff {s t : Instant} :
    s.before t = true ↔ s.seconds < t.seconds ∨ s.seconds = t.seconds ∧ s.nanos < t.nanos := by
  simp [before]

theorem before_of_before_of_not_before {s t u : Instant} (hst : s.before t = true)
    (hut : u.before t = false) : s.before u = true := by
  rw [← Bool.not_eq_true, before_iff] at hut
  rw [before_iff] at hst ⊢
  omega

def nanosecondsAt (seconds : Int) (nanos : Nat) : Int :=
  seconds * nanosPerSecond + nanos

/--
The instant a lifetime later, if it is in range. A sum that leaves a leap second forward starts from the
second before it, one that leaves it backward from the second after it.
-/
def add? (t : Instant) (l : Lifetime) : Option Instant :=
  let wholeSeconds := l.nanos.tdiv nanosPerSecond
  let fraction := l.nanos.tmod nanosPerSecond
  if t.isLeapSecond then
    if 0 < wholeSeconds || 0 < fraction && 2 * nanosPerSecond ≤ t.nanos + fraction then
      ofNanoseconds? (nanosecondsAt t.seconds (t.nanos - nanosPerSecond) + l.nanos)
    else if wholeSeconds < 0 then
      ofNanoseconds? (nanosecondsAt (t.seconds + 1) (t.nanos - nanosPerSecond) + l.nanos)
    else ofParts? t.seconds (t.nanos + fraction).toNat
  else ofNanoseconds? (nanosecondsAt t.seconds t.nanos + l.nanos)

end Instant

end AddressLookup
