import AddressLookup.Cache.Basic
import Mathlib.Data.List.Induction

/-! What a cache shows after a whole history of storing and purging, whatever the clock did meanwhile. Only
the last document stored under a key matters, and purging changes nothing that can be seen at or after
the instant of the purge. -/

namespace AddressLookup.Cache

inductive Event where
  | set (key : String) (data : Json) (now : Instant)
  | purge (now : Instant)

namespace Event

def perform (c : Cache) : Event → Cache
  | set key data now => c.set key data now
  | purge now => c.purge now

def isSet : Event → Bool
  | set _ _ _ => true
  | purge _ => false

def stored? (key : String) : Event → Option (Json × Instant)
  | set k data now => if k = key then some (data, now) else none
  | purge _ => none

end Event

def replay (c : Cache) (history : List Event) : Cache :=
  history.foldl Event.perform c

def lastSet? (key : String) (history : List Event) : Option (Json × Instant) :=
  history.reverse.findSome? (Event.stored? key)

def PurgedBy (now : Instant) (history : List Event) : Prop :=
  ∀ p, .purge p ∈ history → now.before p = false

/-- The last document stored under the key is this one, and it had no expiry or one not before now. -/
def Shows (lifetime : Option Lifetime) (history : List Event) (key : String) (now : Instant)
    (data : Json) : Prop :=
  ∃ t, lastSet? key history = some (data, t) ∧
    ∀ expires ∈ lifetime.bind t.add?, expires.before now = false

theorem lastSet?_concat (key : String) (history : List Event) (e : Event) :
    lastSet? key (history ++ [e]) = (e.stored? key).or (lastSet? key history) := by
  rw [lastSet?, List.reverse_append, List.reverse_singleton, List.singleton_append,
    List.findSome?_cons]
  cases e.stored? key <;> rfl

theorem replay_append (c : Cache) (earlier later : List Event) :
    c.replay (earlier ++ later) = (c.replay earlier).replay later :=
  List.foldl_append

theorem replay_concat (c : Cache) (history : List Event) (e : Event) :
    c.replay (history ++ [e]) = e.perform (c.replay history) :=
  replay_append c history [e]

theorem lifetime_replay (c : Cache) (history : List Event) : (c.replay history).lifetime = c.lifetime := by
  induction history using List.reverseRecOn with
  | nil => rfl
  | append_singleton history e ih =>
    rw [replay_concat, ← ih]
    cases e <;> rfl

theorem path_replay (c : Cache) (history : List Event) : (c.replay history).path = c.path := by
  induction history using List.reverseRecOn with
  | nil => rfl
  | append_singleton history e ih =>
    rw [replay_concat, ← ih]
    cases e <;> rfl

theorem get?_entries_replay (c : Cache) {history : List Event} (hsets : ∀ e ∈ history, e.isSet = true)
    (key : String) :
    (c.replay history).entries.get? key =
      ((lastSet? key history).map fun stored => ⟨c.lifetime.bind stored.2.add?, stored.1⟩).or
        (c.entries.get? key) := by
  induction history using List.reverseRecOn with
  | nil => rfl
  | append_singleton history e ih =>
    have hih := ih fun e he => hsets e (List.mem_append_left _ he)
    have hset := hsets e (List.mem_append_right _ (List.mem_singleton_self e))
    cases e with
    | set k data t =>
      rw [replay_concat, Event.perform, set, KeyMap.get?_insert, lastSet?_concat, Event.stored?, expiryAt,
        lifetime_replay]
      by_cases hkey : key = k
      · rw [if_pos hkey, if_pos hkey.symm]
        rfl
      · rw [if_neg hkey, if_neg (Ne.symm hkey), hih]
        rfl
    | purge p => cases hset

theorem isExpired_of_not_before {e : Entry} {p now : Instant} (he : e.isExpired p = true)
    (hp : now.before p = false) : e.isExpired now = true := by
  obtain ⟨expires, hexpires, hbefore⟩ := (Option.any_eq_true _ _).1 he
  have hnow := Instant.before_of_before_of_not_before hbefore hp
  exact (Option.any_eq_true _ _).2 ⟨expires, hexpires, hnow⟩

def Entry.visible? (now : Instant) (e : Entry) : Option Json :=
  if e.isExpired now then none else some e.data

theorem get?_eq_bind (c : Cache) (key : String) (now : Instant) :
    c.get? key now = (c.entries.get? key).bind (Entry.visible? now) := by
  rw [get?]
  cases c.entries.get? key <;> rfl

def Live (c : Cache) (key : String) (now : Instant) : Prop :=
  ∃ e, c.entries.get? key = some e ∧ e.isExpired now = false

theorem live_iff {c : Cache} {key : String} {now : Instant} :
    c.Live key now ↔ ∃ document, c.get? key now = some document := by
  rw [get?_eq_bind, Live]
  rcases c.entries.get? key with _ | e
  · simp
  · cases hexpired : e.isExpired now <;> simp [Entry.visible?, hexpired]

theorem get?_set (c : Cache) (key k : String) (data : Json) (t now : Instant) :
    (c.set k data t).get? key now =
      if key = k then Entry.visible? now ⟨c.expiryAt t, data⟩ else c.get? key now := by
  rw [get?_eq_bind, get?_eq_bind, set, KeyMap.get?_insert]
  split <;> rfl

theorem get?_purge (c : Cache) (key : String) {p now : Instant} (hp : now.before p = false) :
    (c.purge p).get? key now = c.get? key now := by
  rw [get?_eq_bind, get?_eq_bind, purge, KeyMap.get?_filter]
  rcases c.entries.get? key with _ | e
  · rfl
  · rw [Option.filter_some]
    split
    · rfl
    · next hkeep =>
      -- What the purge drops had expired then, so it has expired by now.
      have hexpired : e.isExpired p = true := by simpa using hkeep
      simp [Entry.visible?, isExpired_of_not_before hexpired hp]

theorem PurgedBy.of_concat {now : Instant} {history : List Event} {e : Event}
    (h : PurgedBy now (history ++ [e])) : PurgedBy now history :=
  fun p hp => h p (List.mem_append_left [e] hp)

theorem get?_replay (path : Option Path) (lifetime : Option Lifetime) {history : List Event}
    {now : Instant} (hpurges : PurgedBy now history) (key : String) :
    (replay ⟨path, lifetime, ∅⟩ history).get? key now =
      (lastSet? key history).bind fun stored =>
        Entry.visible? now ⟨lifetime.bind stored.2.add?, stored.1⟩ := by
  induction history using List.reverseRecOn with
  | nil => rfl
  | append_singleton history e ih =>
    have hih := ih hpurges.of_concat
    rw [replay_concat, lastSet?_concat]
    cases e with
    | set k data t =>
      rw [Event.perform, get?_set, hih, Event.stored?, expiryAt, lifetime_replay]
      by_cases hkey : key = k
      · rw [if_pos hkey, if_pos hkey.symm]
        rfl
      · rw [if_neg hkey, if_neg (Ne.symm hkey)]
        rfl
    | purge p =>
      have hp : now.before p = false := hpurges p (List.mem_append_right _ (List.mem_singleton_self _))
      rw [Event.perform, get?_purge _ _ hp, hih]
      rfl

theorem visible?_eq_some_iff {e : Entry} {now : Instant} {data : Json} :
    e.visible? now = some data ↔
      e.data = data ∧ ∀ expires ∈ e.expires, expires.before now = false := by
  have hlive : e.isExpired now = false ↔ ∀ expires ∈ e.expires, expires.before now = false :=
    Option.any_eq_false _ _
  rw [← hlive, Entry.visible?]
  cases e.isExpired now <;> simp

theorem get?_replay_eq_some_iff (path : Option Path) (lifetime : Option Lifetime) {history : List Event}
    {now : Instant} (hpurges : PurgedBy now history) (key : String) (data : Json) :
    (replay ⟨path, lifetime, ∅⟩ history).get? key now = some data ↔
      Shows lifetime history key now data := by
  rw [get?_replay path lifetime hpurges, Option.bind_eq_some_iff]
  constructor
  · rintro ⟨⟨d, t⟩, hlast, hvisible⟩
    obtain ⟨rfl, hexpires⟩ := visible?_eq_some_iff.1 hvisible
    exact ⟨t, hlast, hexpires⟩
  · rintro ⟨t, hlast, hexpires⟩
    exact ⟨(data, t), hlast, visible?_eq_some_iff.2 ⟨rfl, hexpires⟩⟩

theorem lastSet?_filter_isSet (key : String) (history : List Event) :
    lastSet? key (history.filter Event.isSet) = lastSet? key history := by
  induction history using List.reverseRecOn with
  | nil => rfl
  | append_singleton history e ih =>
    rw [List.filter_append, lastSet?_concat, ← ih]
    cases e with
    | set k data t => exact lastSet?_concat key _ _
    | purge p => simp [Event.isSet, Event.stored?]

theorem purgedBy_filter_isSet (now : Instant) (history : List Event) :
    PurgedBy now (history.filter Event.isSet) := by
  intro p hp
  exact absurd (List.mem_filter.1 hp).2 (by simp [Event.isSet])

theorem purgedCount_add_size (c : Cache) (p : Instant) :
    c.purgedCount p + (c.purge p).size = c.size :=
  Nat.sub_add_cancel (List.length_filter_le _ _)

theorem purge_purge (c : Cache) {p p' : Instant} (hp : p.before p' = false) :
    (c.purge p).purge p' = c.purge p := by
  have hentries : (c.purge p).entries.entries.filter (fun e => !e.2.isExpired p') =
      (c.purge p).entries.entries := by
    refine List.filter_eq_self.2 fun e he => ?_
    have hkept : e.2.isExpired p = false := by simpa using (List.mem_filter.1 he).2
    rw [Bool.not_eq_true', ← Bool.not_eq_true]
    intro hexpired
    rw [isExpired_of_not_before hexpired hp] at hkept
    exact Bool.noConfusion hkept
  simp only [purge, KeyMap.filter] at hentries ⊢
  simp only [hentries]

/-- At every instant not before a purge of its history, a cache that was empty shows just the document
last stored under a key unless its expiry has passed, as if nothing had been purged. A purge counts what
it drops, and leaves nothing to one at the same or an earlier instant. -/
theorem replay_shows (path : Option Path) (lifetime : Option Lifetime) (history : List Event) :
    let c := replay ⟨path, lifetime, ∅⟩ history
    (∀ key now, PurgedBy now history →
      (∀ data, c.get? key now = some data ↔ Shows lifetime history key now data) ∧
      ((∀ data, ¬ Shows lifetime history key now data) → c.get? key now = none) ∧
      (replay ⟨path, lifetime, ∅⟩ (history.filter Event.isSet)).get? key now = c.get? key now) ∧
    ∀ p, c.purgedCount p + (c.purge p).size = c.size ∧
      ∀ p', p.before p' = false →
        (c.purge p).purgedCount p' = 0 ∧ (c.purge p).purge p' = c.purge p := by
  intro c
  refine ⟨fun key now hpurges => ?_, fun p => ⟨purgedCount_add_size c p, fun p' hp => ?_⟩⟩
  · have hshows := get?_replay_eq_some_iff path lifetime hpurges key
    refine ⟨hshows, fun hnone => ?_, ?_⟩
    · exact Option.eq_none_iff_forall_ne_some.2 fun data hdata => hnone data ((hshows data).1 hdata)
    · rw [get?_replay path lifetime (purgedBy_filter_isSet now history), lastSet?_filter_isSet,
        ← get?_replay path lifetime hpurges]
  · have hsame := purge_purge c hp
    refine ⟨?_, hsame⟩
    rw [purgedCount, hsame, Nat.sub_self]

/-- Stored last, though by an earlier clock, a document with ten seconds to live shows up to the end of
them, and then the one it replaced does not show again. -/
theorem replay_shows_until_expiry :
    let history : List Event := [.set "k" (.bool true) ⟨100, 0, by decide, by decide⟩,
      .purge ⟨15, 0, by decide, by decide⟩, .set "k" .null ⟨20, 0, by decide, by decide⟩]
    let c := replay ⟨none, some ⟨10000000000⟩, ∅⟩ history
    let last : Instant := ⟨30, 0, by decide, by decide⟩
    let next : Instant := ⟨30, 1, by decide, by decide⟩
    PurgedBy last history ∧ PurgedBy next history ∧
      c.get? "k" last = some .null ∧ c.get? "k" next = none := by
  intro history c last next
  have hpurges (now : Instant) (h : now.before ⟨15, 0, by decide, by decide⟩ = false) :
      PurgedBy now history := by
    intro p hp
    simp only [history, List.mem_cons, List.not_mem_nil, or_false, reduceCtorEq, false_or,
      Event.purge.injEq] at hp
    rwa [hp]
  have hlast := hpurges last (by decide)
  have hnext := hpurges next (by decide)
  have hshows := replay_shows none (some ⟨10000000000⟩) history
  refine ⟨hlast, hnext, ?_, ?_⟩
  · refine ((hshows.1 "k" last hlast).1 .null).2 ⟨_, rfl, fun expires hexpires => ?_⟩
    obtain rfl : last = expires := Option.some.inj hexpires
    decide
  · refine (hshows.1 "k" next hnext).2.1 fun data h => ?_
    obtain ⟨t, ht, hexpires⟩ := h
    obtain ⟨-, rfl⟩ := Prod.mk.inj (Option.some.inj ht)
    exact absurd (hexpires last rfl) (by decide)

end AddressLookup.Cache
