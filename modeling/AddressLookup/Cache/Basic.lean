import AddressLookup.Files.Path
import AddressLookup.Instant.Basic
import AddressLookup.Json.Basic
import AddressLookup.KeyMap

/-!
Documents kept under keys until they expire. The expiry of an entry is fixed when it is stored; it is
served up to and including that instant, and stays in the cache, unseen, until expired entries are purged.
-/

namespace AddressLookup

/-- A document and the last instant at which it is served; without one it never expires. -/
structure Cache.Entry where
  expires : Option Instant
  data : Json

structure Cache where
  path : Option Path
  lifetime : Option Lifetime
  entries : KeyMap Cache.Entry

namespace Cache

def Entry.isExpired (e : Entry) (now : Instant) : Bool :=
  e.expires.any fun expires => expires.before now

def inMemory (lifetime : Option Lifetime) : Cache :=
  ⟨none, lifetime, ∅⟩

def size (c : Cache) : Nat :=
  c.entries.size

def isEmpty (c : Cache) : Bool :=
  c.entries.isEmpty

def get? (c : Cache) (key : String) (now : Instant) : Option Json :=
  match c.entries.get? key with
  | none => none
  | some e => if e.isExpired now then none else some e.data

/-- The expiry of what is stored now; one out of the range of instants is no expiry. -/
def expiryAt (c : Cache) (now : Instant) : Option Instant :=
  c.lifetime.bind now.add?

def set (c : Cache) (key : String) (data : Json) (now : Instant) : Cache :=
  { c with entries := c.entries.insert key ⟨c.expiryAt now, data⟩ }

def purge (c : Cache) (now : Instant) : Cache :=
  { c with entries := c.entries.filter fun _ e => !e.isExpired now }

def purgedCount (c : Cache) (now : Instant) : Nat :=
  c.size - (c.purge now).size

end Cache

end AddressLookup
