import AddressLookup.Proofs.Source.Replay

/-! Single fetches and sequences of them. A fetch shows a fresh document of the cache, or asks once and stores
the answer, or asks once and fails without a trace in the cache. So whatever the network and the clock do
between the fetches of a sequence, the cache holds for each key what the last answer about it was. -/

namespace AddressLookup

namespace FieldSource

variable {σ ω : Type} [FieldSource σ ω]

def fetches (s : σ) : List (String × ω) → List (Visit σ ω)
  | [] => []
  | (key, w) :: rest => ⟨s, key, w⟩ :: fetches (fetch s key w).source rest

def afterFetches (s : σ) : List (String × ω) → σ
  | [] => s
  | (key, w) :: rest => afterFetches (fetch s key w).source rest

end FieldSource

namespace Visit

structure FromCache (v : Visit RemoteSource World) (e : Cache.Entry) : Prop where
  held : v.source.cache.entries.get? v.key = some e
  fresh : e.isExpired v.world.now = false
  requests_eq : v.requests = []
  source_eq : v.fetched.source = v.source
  outcome_eq : v.fetched.outcome = .ok (Record.ofDocument e.data)

structure Asks (v : Visit RemoteSource World) : Prop where
  not_held : ∀ e, v.source.cache.entries.get? v.key = some e → e.isExpired v.world.now = true
  urls_eq : v.requests.map Http.Request.url = [v.source.baseUrl ++ v.key]

structure FromAnswer (v : Visit RemoteSource World) (document : Json) : Prop extends v.Asks where
  answered : v.Answered document
  stored : v.fetched.source.cache.entries.get? v.key =
    some ⟨v.source.cache.lifetime.bind v.asked.now.add?, document⟩
  others_eq : ∀ key, key ≠ v.key →
    v.fetched.source.cache.entries.get? key = v.source.cache.entries.get? key
  source_eq : { v.fetched.source with cache := { v.fetched.source.cache with entries := ∅ } } =
    { v.source with cache := { v.source.cache with entries := ∅ } }
  outcome_eq : v.fetched.outcome = .ok (Record.ofDocument document)

structure Fails (v : Visit RemoteSource World) (e : Error) : Prop extends v.Asks where
  not_answered : ∀ document, ¬ v.Answered document
  source_eq : v.fetched.source = v.source
  outcome_eq : v.fetched.outcome = .error e
  asks_again : ∀ w : World, w.now.before v.world.now = false → (Visit.mk v.fetched.source v.key w).Asks

section

variable {v : Visit RemoteSource World} {document : Json} {e : Error}

theorem asks_iff : v.Asks ↔ v.shown? = none := by
  have hshown : v.shown? = none ↔
      ∀ e, v.source.cache.entries.get? v.key = some e → e.isExpired v.world.now = true := by
    rw [shown?, Cache.get?_eq_bind]
    rcases v.source.cache.entries.get? v.key with _ | e
    · simp
    · cases hexpired : e.isExpired v.world.now <;> simp [Cache.Entry.visible?, hexpired]
  constructor
  · exact fun h => hshown.2 h.not_held
  · exact fun h => ⟨hshown.1 h, by rw [requests_of_not_shown h]; rfl⟩

theorem exists_fromCache (h : v.shown? = some document) : ∃ e, v.FromCache e := by
  have hshown := h
  rw [shown?, Cache.get?_eq_bind, Option.bind_eq_some_iff] at hshown
  obtain ⟨e, hheld, hvisible⟩ := hshown
  obtain ⟨rfl, hfresh⟩ := Cache.visible?_eq_some_iff.1 hvisible
  refine ⟨e, hheld, (Option.any_eq_false _ _).2 hfresh, requests_of_shown h, ?_, ?_⟩
  · rw [fetched_of_shown h]
  · rw [fetched_of_shown h]

theorem Answered.fromAnswer (h : v.Answered document) : v.FromAnswer document := by
  refine ⟨asks_iff.2 h.shown?, h, ?_, fun key hkey => ?_, ?_, ?_⟩
  · rw [h.fetched]
    show (KeyMap.insert _ _ _).get? v.key = _
    rw [KeyMap.get?_insert, if_pos rfl]
    rfl
  · rw [h.fetched]
    show (KeyMap.insert _ _ _).get? key = _
    rw [KeyMap.get?_insert, if_neg hkey]
  · rw [h.fetched]
    rfl
  · rw [h.fetched]

theorem Asks.later (h : v.Asks) {w : World} (hw : w.now.before v.world.now = false) :
    (Visit.mk v.source v.key w).Asks := by
  have hnone : (Visit.mk v.source v.key w).shown? = none := by
    rw [shown?, Cache.get?_eq_bind]
    rcases hheld : v.source.cache.entries.get? v.key with _ | e
    · rfl
    · have hexpired := Cache.isExpired_of_not_before (h.not_held e hheld) hw
      rw [Option.bind_some, Cache.Entry.visible?, if_pos hexpired]
  exact asks_iff.2 hnone

theorem exists_fails (h : v.shown? = none) (hnone : ∀ document, ¬ v.Answered document) : ∃ e, v.Fails e := by
  have hsource := source_fetched hnone
  have houtcome : ∃ e, v.fetched.outcome = .error e := by
    rw [fetched_of_not_shown h]
    split
    · next e _ => exact ⟨e, rfl⟩
    · next document hread => exact absurd ((answered_iff h).2 hread) (hnone document)
  obtain ⟨e, he⟩ := houtcome
  refine ⟨e, asks_iff.2 h, hnone, hsource, he, fun w hw => ?_⟩
  rw [hsource]
  exact (asks_iff.2 h).later hw

theorem fetch_cases (v : Visit RemoteSource World) :
    (∃ e, v.FromCache e) ∨ (∃ document, v.FromAnswer document) ∨ ∃ e, v.Fails e := by
  rcases hshown : v.shown? with _ | document
  · by_cases hanswered : ∃ document, v.Answered document
    · obtain ⟨document, hdocument⟩ := hanswered
      exact .inr (.inl ⟨document, hdocument.fromAnswer⟩)
    · exact .inr (.inr (exists_fails hshown fun document hdocument => hanswered ⟨document, hdocument⟩))
  · exact .inl (exists_fromCache hshown)

theorem FromCache.not_asks {e : Cache.Entry} (h : v.FromCache e) : ¬ v.Asks := by
  intro hasks
  have hexpired := hasks.not_held e h.held
  rw [h.fresh] at hexpired
  cases hexpired

end

end Visit

namespace RemoteSource

open FieldSource Cache

/-- Of the fetches of the key the last that was answered was answered with the document of the entry, and its
time runs from then. -/
def BroughtLast (lifetime : Option Lifetime) (visits : List (Visit RemoteSource World)) (key : String)
    (e : Entry) : Prop :=
  ∃ earlier v later, visits = earlier ++ v :: later ∧ v.key = key ∧ v.Answered e.data ∧
    e.expires = lifetime.bind v.asked.now.add? ∧
    ∀ u ∈ later, u.key = key → ∀ document, ¬ u.Answered document

section

variable {s : RemoteSource} {steps : List (String × World)}

theorem service_of_mem_fetches {v : Visit RemoteSource World} (h : v ∈ fetches s steps) :
    v.source.service = s.service := by
  induction steps generalizing s with
  | nil => cases h
  | cons step rest ih =>
    rcases List.mem_cons.1 h with rfl | h
    · rfl
    · exact (ih h).trans (service_document s step.1 step.2)

theorem afterFetches_eq (s : RemoteSource) (earlier : List (Visit RemoteSource World))
    (steps : List (String × World)) :
    afterFetches (s.after earlier) steps = s.after (earlier ++ fetches (s.after earlier) steps) := by
  induction steps generalizing earlier with
  | nil => rw [fetches, List.append_nil, afterFetches]
  | cons step rest ih =>
    obtain ⟨key, w⟩ := step
    have hfetched : (FieldSource.fetch (s.after earlier) key w).source =
        s.after (earlier ++ [⟨s.after earlier, key, w⟩]) :=
      after_concat_self (v := ⟨s.after earlier, key, w⟩) rfl
    rw [afterFetches, fetches, hfetched, ih, List.append_assoc, List.singleton_append]

theorem broughtLast_iff {service : Service} {visits : List (Visit RemoteSource World)}
    (hservice : ∀ v ∈ visits, v.source.service = service) {lifetime : Option Lifetime} {key : String} {e : Entry} :
    BroughtLast lifetime visits key e ↔
      ∃ t, lastSet? key (storedBy service visits) = some (e.data, t) ∧ e.expires = lifetime.bind t.add? := by
  constructor
  · rintro ⟨earlier, v, later, hsplit, hkey, hanswered, hexpires, hlater⟩
    have hv : v ∈ visits := by simp [hsplit]
    refine ⟨v.asked.now, lastSet?_storedBy_eq_some_iff.2 ?_, hexpires⟩
    exact ⟨earlier, v, later, hsplit, ⟨hservice v hv, hkey, hanswered, rfl⟩, fun u hu _ => hlater u hu⟩
  · rintro ⟨t, hlast, hexpires⟩
    obtain ⟨earlier, v, later, hsplit, ⟨-, hkey, hanswered, rfl⟩, hlater⟩ :=
      lastSet?_storedBy_eq_some_iff.1 hlast
    have hlater' : ∀ u ∈ later, u.key = key → ∀ document, ¬ u.Answered document :=
      fun u hu => hlater u hu (hservice u (by simp [hsplit, hu]))
    exact ⟨earlier, v, later, hsplit, hkey, hanswered, hexpires, hlater'⟩

theorem get?_afterFetches_eq_some_iff {key : String} {e : Entry} :
    (afterFetches s steps).cache.entries.get? key = some e ↔
      BroughtLast s.cache.lifetime (fetches s steps) key e ∨
        (∀ v ∈ fetches s steps, v.key = key → ∀ document, ¬ v.Answered document) ∧
          s.cache.entries.get? key = some e := by
  have hafter : afterFetches s steps = s.after (fetches s steps) := afterFetches_eq s [] steps
  have hservice : ∀ v ∈ fetches s steps, v.source.service = s.service := fun v => service_of_mem_fetches
  have hnever : (∀ v ∈ fetches s steps, v.key = key → ∀ document, ¬ v.Answered document) ↔
      ∀ document, ¬ Learned (fetches s steps) s.service key document := by
    constructor
    · rintro h document ⟨v, hv, -, hkey, hanswered⟩
      exact h v hv hkey document hanswered
    · exact fun h v hv hkey document hanswered => h document ⟨v, hv, hservice v hv, hkey, hanswered⟩
  rw [hafter, get?_after, broughtLast_iff hservice, hnever, ← lastSet?_storedBy_eq_none_iff]
  rcases lastSet? key (storedBy s.service (fetches s steps)) with _ | ⟨document, t⟩
  · simp
  · obtain ⟨expires, data⟩ := e
    simp [eq_comm, and_comm]

def replying (status : Nat) (body : String) (t : Instant) : World :=
  .initial ⟨[], .top⟩ ⟨fun _ r => ⟨[r], some ⟨status, body.toUTF8⟩⟩⟩ (.still t)

/-- A fetch does just one of three things: it shows a fresh document of the cache without a request; or it asks
the address of the key once, shows the document answered and stores it under the key alone; or it asks once and
fails with the cache as it was, and asks again the next time. So after any sequence of fetches the cache has
for a key the document of the last answer about it, or what it had before if there was none. -/
theorem fetches_keep_last_answers :
    (∀ v : Visit RemoteSource World,
      ((∃ e, v.FromCache e) ∨ (∃ document, v.FromAnswer document) ∨ ∃ e, v.Fails e) ∧
      ¬ ((∃ e, v.FromCache e) ∧ ∃ document, v.FromAnswer document) ∧
      ¬ ((∃ e, v.FromCache e) ∧ ∃ e, v.Fails e) ∧
      ¬ ((∃ document, v.FromAnswer document) ∧ ∃ e, v.Fails e)) ∧
    ∀ (s : RemoteSource) (steps : List (String × World)) (key : String) (e : Entry),
      (afterFetches s steps).cache.entries.get? key = some e ↔
        BroughtLast s.cache.lifetime (fetches s steps) key e ∨
          (∀ v ∈ fetches s steps, v.key = key → ∀ document, ¬ v.Answered document) ∧
            s.cache.entries.get? key = some e := by
  refine ⟨fun v => ⟨v.fetch_cases, ?_, ?_, ?_⟩, fun s steps key e => get?_afterFetches_eq_some_iff⟩
  · rintro ⟨⟨e, he⟩, document, hdocument⟩
    exact he.not_asks hdocument.toAsks
  · rintro ⟨⟨e, he⟩, error, herror⟩
    exact he.not_asks herror.toAsks
  · rintro ⟨⟨document, hdocument⟩, error, herror⟩
    exact herror.not_answered document hdocument.answered

/-- A document that holds nothing is served for its ten seconds like any other. It stays in the cache after them,
as no later fetch is answered. -/
theorem fetches_keep_last_answers_of_null :
    let start : Instant := ⟨0, 0, by decide, by decide⟩
    let last : Instant := ⟨10, 0, by decide, by decide⟩
    let next : Instant := ⟨10, 1, by decide, by decide⟩
    let s : RemoteSource := ⟨.geo, "http://lookup/", none, ⟨none, some ⟨10000000000⟩, ∅⟩⟩
    let steps := [("1.1.1.1", replying 200 "null" start), ("1.1.1.1", replying 200 "{}" last),
      ("1.1.1.1", replying 404 "" next)]
    (fetches s steps).map (fun v => v.requests.length) = [1, 0, 1] ∧
      (afterFetches s steps).cache.entries.get? "1.1.1.1" = some ⟨some last, .null⟩ := by
  intro start last next s steps
  have hlater : ∀ u ∈ (fetches s steps).tail, u.answer?.isNone = true := by decide +kernel
  refine ⟨by decide +kernel, (fetches_keep_last_answers.2 s steps "1.1.1.1" _).2 (.inl ?_)⟩
  refine ⟨[], ⟨s, _, _⟩, (fetches s steps).tail, rfl, rfl, Visit.answer?_eq_some_iff.1 rfl, by decide +kernel, ?_⟩
  intro u hu _ document hanswered
  have hnone := hlater u hu
  rw [Visit.answer?_eq_some_iff.2 hanswered] at hnone
  cases hnone

end

end RemoteSource

end AddressLookup
