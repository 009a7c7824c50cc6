import AddressLookup.Proofs.Source.Fetches

/-! The two services side by side. Sources that know the same and are told the same do the same, whichever of
the services they ask, until a request comes to nothing found: one of them takes that for an answer, the other
for a failure. -/

namespace AddressLookup

/-- The same result, or the same failure but for the name of the source in it. -/
inductive SameOutcome {α : Type} : Except Error α → Except Error α → Prop
  | ok (a : α) : SameOutcome (.ok a) (.ok a)
  | http : SameOutcome (.error .http) (.error .http)
  | lookup (key reason : String) : SameOutcome (.error (.lookup Service.geo.name key reason))
      (.error (.lookup Service.rdap.name key reason))

theorem SameOutcome.of_eq_http {α : Type} {x : Except Error α} (h : ∀ e, x = .error e → e = .http) :
    SameOutcome x x := by
  cases x with
  | ok a => exact .ok a
  | error e =>
    rw [h e rfl]
    exact .http

theorem Service.documentOfBody_eq_error {body : ByteArray} {e : Error} (h : documentOfBody body = .error e) :
    e = .http := by
  rw [documentOfBody] at h
  split at h
  · cases h
  · exact (Except.error.inj h).symm

theorem Service.sameOutcome_readResponse (key : String) {answer : Option Http.Response}
    (h : ∀ response, answer = some response → response.status ≠ 404) :
    SameOutcome (Service.geo.readResponse key answer) (Service.rdap.readResponse key answer) := by
  rcases answer with _ | response
  · exact .http
  · have hfound := h response rfl
    simp only [readResponse, hfound, decide_false, Bool.false_and, Bool.false_eq_true, if_false]
    split
    · exact .of_eq_http fun e => documentOfBody_eq_error
    · exact .lookup key _

namespace Visit

variable (v : Visit RemoteSource World)

def response? : Option Http.Response :=
  (v.world.exchange (v.source.request v.key)).response

def FindsNothing : Prop :=
  v.requests ≠ [] ∧ ∃ response, v.response? = some response ∧ response.status = 404

variable {v}

theorem requests_ne_nil_iff : v.requests ≠ [] ↔ v.shown? = none := by
  rcases hshown : v.shown? with _ | document
  · simp [requests_of_not_shown hshown]
  · simp [requests_of_shown hshown]

theorem FindsNothing.shown? (h : v.FindsNothing) : v.shown? = none :=
  requests_ne_nil_iff.1 h.1

end Visit

namespace RemoteSource

open FieldSource Cache

/-- Two sources for the same address, of which each asks one of the services, with the same in their caches. -/
structure Twins (geo rdap : RemoteSource) : Prop where
  geo_service : geo.service = .geo
  rdap_service : rdap.service = .rdap
  baseUrl_eq : geo.baseUrl = rdap.baseUrl
  lifetime_eq : geo.cache.lifetime = rdap.cache.lifetime
  entries_eq : geo.cache.entries = rdap.cache.entries

/-- Two fetches of one key that are told the same: the time, and when they ask, the answer and the time then. -/
structure Alike (u v : Visit RemoteSource World) : Prop where
  key_eq : u.key = v.key
  now_eq : u.world.now = v.world.now
  later_eq : u.requests ≠ [] → u.asked.now = v.asked.now
  response_eq : u.requests ≠ [] → u.response? = v.response?

structure Agree (u v : Visit RemoteSource World) : Prop where
  urls_eq : u.requests.map Http.Request.url = v.requests.map Http.Request.url
  outcome : SameOutcome u.fetched.outcome v.fetched.outcome

section

variable {u v : Visit RemoteSource World}

theorem Twins.shown?_eq (h : Twins u.source v.source) (halike : Alike u v) : u.shown? = v.shown? := by
  rw [Visit.shown?, Visit.shown?, get?_eq_bind, get?_eq_bind, h.entries_eq, halike.key_eq, halike.now_eq]

theorem Twins.urls_eq (h : Twins u.source v.source) (halike : Alike u v) :
    u.requests.map Http.Request.url = v.requests.map Http.Request.url := by
  rcases hshown : u.shown? with _ | document
  · rw [Visit.requests_of_not_shown hshown, Visit.requests_of_not_shown ((h.shown?_eq halike).symm.trans hshown)]
    simp only [List.map_cons, List.map_nil, request, h.baseUrl_eq, halike.key_eq]
  · rw [Visit.requests_of_shown hshown, Visit.requests_of_shown ((h.shown?_eq halike).symm.trans hshown)]

theorem Twins.sameOutcome_readResponse (h : Twins u.source v.source) (halike : Alike u v)
    (hasked : u.requests ≠ []) (hfound : ¬ u.FindsNothing) :
    SameOutcome (u.source.service.readResponse u.key u.response?)
      (v.source.service.readResponse v.key v.response?) := by
  have hstatus : ∀ response, u.response? = some response → response.status ≠ 404 :=
    fun response hresponse hnothing => hfound ⟨hasked, response, hresponse, hnothing⟩
  rw [h.geo_service, h.rdap_service, ← halike.key_eq, ← halike.response_eq hasked]
  exact Service.sameOutcome_readResponse u.key hstatus

theorem Twins.keep (h : Twins u.source v.source) (halike : Alike u v) (hasked : u.requests ≠ [])
    (document : Json) :
    Twins { u.source with cache := u.keep document } { v.source with cache := v.keep document } := by
  refine ⟨h.geo_service, h.rdap_service, h.baseUrl_eq, h.lifetime_eq, ?_⟩
  show u.source.cache.entries.insert _ _ = v.source.cache.entries.insert _ _
  rw [expiryAt, expiryAt, h.entries_eq, h.lifetime_eq, halike.key_eq, halike.later_eq hasked]

theorem Twins.fetched (h : Twins u.source v.source) (halike : Alike u v) (hfound : ¬ u.FindsNothing) :
    Agree u v ∧ Twins u.fetched.source v.fetched.source := by
  suffices hsame : SameOutcome u.fetched.outcome v.fetched.outcome ∧ Twins u.fetched.source v.fetched.source from
    ⟨⟨h.urls_eq halike, hsame.1⟩, hsame.2⟩
  have hshown := h.shown?_eq halike
  rcases hu : u.shown? with _ | document
  · rw [hu] at hshown
    have hasked := Visit.requests_ne_nil_iff.2 hu
    have hread := h.sameOutcome_readResponse halike hasked hfound
    rw [Visit.response?, Visit.response?] at hread
    rw [Visit.fetched_of_not_shown hu, Visit.fetched_of_not_shown hshown.symm]
    generalize u.source.service.readResponse _ _ = x at hread ⊢
    generalize v.source.service.readResponse _ _ = y at hread ⊢
    cases hread with
    | ok document => exact ⟨.ok _, h.keep halike hasked document⟩
    | http => exact ⟨.http, h⟩
    | lookup key reason => exact ⟨.lookup key reason, h⟩
  · rw [hu] at hshown
    rw [Visit.fetched_of_shown hu, Visit.fetched_of_shown hshown.symm]
    exact ⟨.ok _, h⟩

theorem Twins.fetched_of_findsNothing (h : Twins u.source v.source) (halike : Alike u v)
    (hnothing : u.FindsNothing) :
    u.Fails (.lookup "geo" u.key "unexpected status 404 Not Found") ∧ v.FromAnswer (.object []) := by
  have hu := hnothing.shown?
  have hv := (h.shown?_eq halike).symm.trans hu
  obtain ⟨hasked, response, hresponse, hstatus⟩ := hnothing
  constructor
  · have hread : u.source.service.readResponse u.key u.response? =
        .error (.lookup "geo" u.key "unexpected status 404 Not Found") := by
      rw [h.geo_service, hresponse]
      simp only [Service.readResponse, Http.Response.isSuccess, hstatus]
      rfl
    have hnone : ∀ document, ¬ u.Answered document := by
      intro document hanswered
      have hdocument := (Visit.answered_iff hu).1 hanswered
      rw [← Visit.response?, hread] at hdocument
      cases hdocument
    obtain ⟨e, he⟩ := Visit.exists_fails hu hnone
    have heq := Visit.readResponse_of_failed he.outcome_eq
    rw [← Visit.response?, hread] at heq
    exact Except.error.inj heq ▸ he
  · refine Visit.Answered.fromAnswer ⟨_, response, Visit.requests_of_not_shown hv, ?_, ?_⟩
    · rw [← Visit.response?, ← halike.response_eq hasked, hresponse]
    · exact .inl ⟨h.rdap_service, hstatus, rfl⟩

end

structure Round where
  key : String
  geoWorld : World
  rdapWorld : World

def fetchPairs (geo rdap : RemoteSource) (rounds : List Round) :
    List (Visit RemoteSource World × Visit RemoteSource World) :=
  (fetches geo (rounds.map fun r => (r.key, r.geoWorld))).zip
    (fetches rdap (rounds.map fun r => (r.key, r.rdapWorld)))

section

variable {geo rdap : RemoteSource} {rounds : List Round}

theorem forall_mem_fetchPairs_nil {P : Visit RemoteSource World × Visit RemoteSource World → Prop} :
    ∀ pair ∈ fetchPairs geo rdap [], P pair :=
  fun _ hpair => absurd hpair List.not_mem_nil

theorem forall_mem_fetchPairs_cons {r : Round} {P : Visit RemoteSource World × Visit RemoteSource World → Prop} :
    (∀ pair ∈ fetchPairs geo rdap (r :: rounds), P pair) ↔
      P (⟨geo, r.key, r.geoWorld⟩, ⟨rdap, r.key, r.rdapWorld⟩) ∧
        ∀ pair ∈ fetchPairs (FieldSource.fetch geo r.key r.geoWorld).source
          (FieldSource.fetch rdap r.key r.rdapWorld).source rounds, P pair :=
  List.forall_mem_cons

theorem Twins.afterFetches (h : Twins geo rdap) (halike : ∀ pair ∈ fetchPairs geo rdap rounds, Alike pair.1 pair.2)
    (hfound : ∀ pair ∈ fetchPairs geo rdap rounds, ¬ pair.1.FindsNothing) :
    (∀ pair ∈ fetchPairs geo rdap rounds, Agree pair.1 pair.2) ∧
      Twins (afterFetches geo (rounds.map fun r => (r.key, r.geoWorld)))
        (afterFetches rdap (rounds.map fun r => (r.key, r.rdapWorld))) := by
  induction rounds generalizing geo rdap with
  | nil => exact ⟨forall_mem_fetchPairs_nil, h⟩
  | cons r rest ih =>
    obtain ⟨halike, hrestalike⟩ := forall_mem_fetchPairs_cons.1 halike
    obtain ⟨hfound, hrestfound⟩ := forall_mem_fetchPairs_cons.1 hfound
    obtain ⟨hagree, hfetched⟩ := Twins.fetched (u := ⟨geo, r.key, r.geoWorld⟩) h halike hfound
    obtain ⟨hrest, hafter⟩ := ih hfetched hrestalike hrestfound
    exact ⟨forall_mem_fetchPairs_cons.2 ⟨hagree, hrest⟩, hafter⟩

theorem alike_replying (geo rdap : RemoteSource) (key : String) (status : Nat) (body : String) (t : Instant) :
    Alike ⟨geo, key, replying status body t⟩ ⟨rdap, key, replying status body t⟩ :=
  ⟨rfl, rfl, fun _ => rfl, fun _ => rfl⟩

theorem findsNothing_replying {s : RemoteSource} {key : String} {status : Nat} {body : String} {t : Instant} :
    (Visit.mk s key (replying status body t)).FindsNothing ↔
      (Visit.mk s key (replying status body t)).requests ≠ [] ∧ status = 404 := by
  refine and_congr_right fun _ => ⟨?_, fun hstatus => ⟨_, rfl, hstatus⟩⟩
  rintro ⟨response, hresponse, hstatus⟩
  obtain rfl := Option.some.inj hresponse
  exact hstatus

/-- Twins that are told the same ask for the same addresses, give the same results and stay twins, as long as
something is found. When first nothing is, the one fails and keeps its cache, and the other gives the empty
record and stores the empty document under the key alone. -/
theorem twins_agree (h : Twins geo rdap) (halike : ∀ pair ∈ fetchPairs geo rdap rounds, Alike pair.1 pair.2)
    (hfound : ∀ pair ∈ fetchPairs geo rdap rounds, ¬ pair.1.FindsNothing) :
    let geo' := afterFetches geo (rounds.map fun r => (r.key, r.geoWorld))
    let rdap' := afterFetches rdap (rounds.map fun r => (r.key, r.rdapWorld))
    (∀ pair ∈ fetchPairs geo rdap rounds, Agree pair.1 pair.2) ∧ Twins geo' rdap' ∧
      ∀ r : Round,
        let u : Visit RemoteSource World := ⟨geo', r.key, r.geoWorld⟩
        let v : Visit RemoteSource World := ⟨rdap', r.key, r.rdapWorld⟩
        Alike u v → u.FindsNothing →
          u.requests.map Http.Request.url = v.requests.map Http.Request.url ∧
          u.Fails (.lookup "geo" r.key "unexpected status 404 Not Found") ∧ u.fetched.source = geo' ∧
          v.FromAnswer (.object []) ∧ v.fetched.outcome = .ok ∅ := by
  intro geo' rdap'
  obtain ⟨hagree, hafter⟩ := h.afterFetches halike hfound
  refine ⟨hagree, hafter, fun r => ?_⟩
  intro u v halike hnothing
  have htwins : Twins u.source v.source := hafter
  obtain ⟨hfails, hstores⟩ := htwins.fetched_of_findsNothing halike hnothing
  exact ⟨htwins.urls_eq halike, hfails, hfails.source_eq, hstores, hstores.outcome_eq⟩

/-- The second fetch of a key is served by both caches, whatever the services would answer by then; and an address
that nobody knows then is kept by one source only. -/
theorem twins_agree_until_unknown :
    let t : Instant := ⟨0, 0, by decide, by decide⟩
    let round (key : String) (status : Nat) (body : String) : Round :=
      ⟨key, replying status body t, replying status body t⟩
    let geo : RemoteSource := ⟨.geo, "http://lookup/", none, Cache.inMemory none⟩
    let rdap : RemoteSource := ⟨.rdap, "http://lookup/", none, Cache.inMemory none⟩
    let rounds := [round "1.1.1.1" 200 "[\"Oslo\"]", round "1.1.1.1" 404 "", round "8.8.8.8" 500 ""]
    let last := round "9.9.9.9" 404 ""
    let geo' := afterFetches geo (rounds.map fun r => (r.key, r.geoWorld))
    let rdap' := afterFetches rdap (rounds.map fun r => (r.key, r.rdapWorld))
    let u : Visit RemoteSource World := ⟨geo', last.key, last.geoWorld⟩
    let v : Visit RemoteSource World := ⟨rdap', last.key, last.rdapWorld⟩
    Twins geo rdap ∧ (∀ pair ∈ fetchPairs geo rdap rounds, Alike pair.1 pair.2) ∧
      (∀ pair ∈ fetchPairs geo rdap rounds, ¬ pair.1.FindsNothing) ∧ Alike u v ∧ u.FindsNothing ∧
      (∀ pair ∈ fetchPairs geo rdap rounds, Agree pair.1 pair.2) ∧ Twins geo' rdap' ∧
      u.Fails (.lookup "geo" "9.9.9.9" "unexpected status 404 Not Found") ∧ v.FromAnswer (.object []) := by
  intro t round geo rdap rounds last geo' rdap' u v
  have h : Twins geo rdap := ⟨rfl, rfl, rfl, rfl, rfl⟩
  have halike : ∀ pair ∈ fetchPairs geo rdap rounds, Alike pair.1 pair.2 := by
    refine forall_mem_fetchPairs_cons.2 ⟨alike_replying _ _ _ _ _ _, ?_⟩
    refine forall_mem_fetchPairs_cons.2 ⟨alike_replying _ _ _ _ _ _, ?_⟩
    exact forall_mem_fetchPairs_cons.2 ⟨alike_replying _ _ _ _ _ _, forall_mem_fetchPairs_nil⟩
  have hfound : ∀ pair ∈ fetchPairs geo rdap rounds, ¬ pair.1.FindsNothing := by
    refine forall_mem_fetchPairs_cons.2 ⟨fun h => absurd (findsNothing_replying.1 h).2 (by decide), ?_⟩
    refine forall_mem_fetchPairs_cons.2 ⟨fun h => absurd (findsNothing_replying.1 h).1 ?served, ?_⟩
    case served =>
      rw [not_ne_iff, ← List.isEmpty_iff]
      decide +kernel
    exact forall_mem_fetchPairs_cons.2
      ⟨fun h => absurd (findsNothing_replying.1 h).2 (by decide), forall_mem_fetchPairs_nil⟩
  have hlast : Alike u v := alike_replying _ _ _ _ _ _
  have hasked : u.requests.isEmpty = false := by decide +kernel
  have hnothing : u.FindsNothing := findsNothing_replying.2 ⟨List.isEmpty_eq_false_iff.1 hasked, by decide⟩
  obtain ⟨hagree, htwins, hunknown⟩ := twins_agree h halike hfound
  obtain ⟨-, hfails, -, hstores, -⟩ := hunknown last hlast hnothing
  exact ⟨h, halike, hfound, hlast, hnothing, hagree, htwins, hfails, hstores⟩

end

end RemoteSource

end AddressLookup
