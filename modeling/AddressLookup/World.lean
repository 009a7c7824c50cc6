import AddressLookup.Files.Tree
import AddressLookup.Http.Basic
import AddressLookup.Instant.Basic

/-!
What a run sees and changes outside itself: the files, the directory for caches that the environment may
set, the network with the requests sent so far, and a clock that may go on with every reading.
-/

namespace AddressLookup

structure Clock where
  reading : Nat → Instant
  count : Nat

namespace Clock

def still (t : Instant) : Clock :=
  ⟨fun _ => t, 0⟩

def now (c : Clock) : Instant :=
  c.reading c.count

def tick (c : Clock) : Clock :=
  { c with count := c.count + 1 }

end Clock

structure World where
  files : Files
  cacheSetting : Option (List UInt8)
  network : Http.Network
  clock : Clock
  sent : List Http.Request
  received : List Http.Request

namespace World

def initial (files : Files) (network : Http.Network) (clock : Clock) : World :=
  ⟨files, none, network, clock, [], []⟩

def now (w : World) : Instant :=
  w.clock.now

def tick (w : World) : World :=
  { w with clock := w.clock.tick }

def exchange (w : World) (r : Http.Request) : Http.Exchange :=
  w.network.exchange w.sent r

def send (w : World) (r : Http.Request) : World :=
  { w with
    sent := w.sent ++ [r]
    received := w.received ++ (w.exchange r).received }

end World

end AddressLookup
