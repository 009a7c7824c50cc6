import AddressLookup.Proofs.Source.Answers
import AddressLookup.Proofs.Source.Order
import AddressLookup.Proofs.Source.Reopen
import Mathlib.Data.List.Nodup

/-! Sources as the fetches of a run leave them. All that a fetch changes about its source is that the answer
is stored in the cache. So after any run the caches are those from before with the answers stored in them, one
after the other, and the requests sent are those of the fetches, whichever of them have failed. -/

namespace AddressLookup

theorem findSome?_filterMap {α β γ : Type} (f : α → Option β) (p : β → Option γ) (l : List α) :
    (l.filterMap f).findSome? p = l.findSome? fun x => (f x).bind p := by
  induction l with
  | nil => rfl
  | cons x l ih =>
    rw [List.findSome?_cons, List.filterMap_cons]
    cases f x with
    | none => exact ih
    | some y => rw [Option.bind_some, List.findSome?_cons, ih]

def Service.requestFor (service : Service) (c : Config) (key : String) : Http.Request :=
  ⟨service.url c ++ key, service.accept, service.contentType, some RemoteSource.agent⟩

namespace RemoteSource

open FieldSource Cache

def storedBy (service : Service) (visits : List (Visit RemoteSource World)) : List Event :=
  visits.filterMap fun v => if v.source.service = service then v.event? else none

def storedFor? (service : Service) (key : String) (v : Visit RemoteSource World) : Option (Json × Instant) :=
  (if v.source.service = service then v.event? else none).bind (Event.stored? key)

def after (visits : List (Visit RemoteSource World)) (s : RemoteSource) : RemoteSource :=
  { s with cache := s.cache.replay (storedBy s.service visits) }

/-- The entry comes of a fetch: the service gave the document for an answer, and its time runs from then. -/
def Brought (lifetime : Option Lifetime) (visits : List (Visit RemoteSource World)) (service : Service)
    (key : String) (e : Entry) : Prop :=
  ∃ v ∈ visits, v.source.service = service ∧ v.key = key ∧ v.Answered e.data ∧
    e.expires = lifetime.bind v.asked.now.add?

def Distinct (visits : List (Visit RemoteSource World)) : Prop :=
  (visits.map fun v => (v.key, v.source.service)).Nodup

section

variable {s : RemoteSource} {visits : List (Visit RemoteSource World)} {v : Visit RemoteSource World}
  {service : Service} {key : String} {document : Json} {t : Instant} {e : Entry}

theorem after_concat_self (h : v.source = s.after visits) : v.fetched.source = s.after (visits ++ [v]) := by
  have hservice : v.source.service = s.service := by rw [h]; rfl
  have hstored : storedBy s.service (visits ++ [v]) = storedBy s.service visits ++ v.event?.toList := by
    rw [storedBy, List.filterMap_append]
    simp only [List.filterMap_cons, List.filterMap_nil, if_pos hservice]
    cases v.event? <;> rfl
  rw [Visit.source_fetched_eq, after, hstored, replay_append, h]
  rfl

theorem after_concat_other (h : v.source.service ≠ s.service) : s.after (visits ++ [v]) = s.after visits := by
  have hstored : storedBy s.service (visits ++ [v]) = storedBy s.service visits := by
    rw [storedBy, List.filterMap_append]
    simp [h, storedBy]
  rw [after, hstored, ← after]

theorem mem_storedBy_iff {event : Event} : event ∈ storedBy service visits ↔
    ∃ v ∈ visits, v.source.service = service ∧
      ∃ document, v.Answered document ∧ event = .set v.key document v.asked.now := by
  simp only [storedBy, List.mem_filterMap, Option.ite_none_right_eq_some, Visit.event?,
    Option.map_eq_some_iff, Visit.answer?_eq_some_iff, @eq_comm Event event]

theorem storedFor?_eq_some_iff : storedFor? service key v = some (document, t) ↔
    v.source.service = service ∧ v.key = key ∧ v.Answered document ∧ v.asked.now = t := by
  simp only [storedFor?, Option.bind_eq_some_iff, Option.ite_none_right_eq_some, Visit.event?,
    Option.map_eq_some_iff, Visit.answer?_eq_some_iff]
  constructor
  · rintro ⟨event, ⟨hservice, data, hanswered, rfl⟩, hstored⟩
    obtain ⟨hkey, hpair⟩ := Option.ite_none_right_eq_some.1 hstored
    obtain ⟨rfl, ht⟩ := Prod.mk.inj (Option.some.inj hpair)
    exact ⟨hservice, hkey, hanswered, ht⟩
  · rintro ⟨hservice, hkey, hanswered, rfl⟩
    exact ⟨_, ⟨hservice, document, hanswered, rfl⟩, if_pos hkey⟩

theorem storedFor?_eq_none_iff : storedFor? service key v = none ↔
    (v.source.service = service → v.key = key → ∀ document, ¬ v.Answered document) := by
  constructor
  · intro h hservice hkey document hanswered
    rw [storedFor?_eq_some_iff.2 ⟨hservice, hkey, hanswered, rfl⟩] at h
    cases h
  · intro h
    refine Option.eq_none_iff_forall_ne_some.2 fun stored hstored => ?_
    obtain ⟨hservice, hkey, hanswered, -⟩ := storedFor?_eq_some_iff.1 hstored
    exact h hservice hkey _ hanswered

theorem lastSet?_storedBy (service : Service) (key : String) (visits : List (Visit RemoteSource World)) :
    lastSet? key (storedBy service visits) = visits.reverse.findSome? (storedFor? service key) := by
  rw [lastSet?, storedBy, ← List.filterMap_reverse, findSome?_filterMap]
  rfl

theorem lastSet?_storedBy_eq_some_iff : lastSet? key (storedBy service visits) = some (document, t) ↔
    ∃ earlier v later, visits = earlier ++ v :: later ∧
      (v.source.service = service ∧ v.key = key ∧ v.Answered document ∧ v.asked.now = t) ∧
      ∀ u ∈ later, u.source.service = service → u.key = key → ∀ other, ¬ u.Answered other := by
  rw [lastSet?_storedBy, List.findSome?_eq_some_iff]
  simp only [storedFor?_eq_some_iff, storedFor?_eq_none_iff, List.reverse_eq_append_iff, List.reverse_cons,
    List.append_assoc, List.singleton_append]
  constructor
  · rintro ⟨later, v, earlier, hsplit, hv, hlater⟩
    exact ⟨earlier.reverse, v, later.reverse, hsplit, hv, fun u hu => hlater u (List.mem_reverse.1 hu)⟩
  · rintro ⟨earlier, v, later, hsplit, hv, hlater⟩
    refine ⟨later.reverse, v, earlier.reverse, ?_, hv, fun u hu => hlater u (List.mem_reverse.1 hu)⟩
    rwa [List.reverse_reverse, List.reverse_reverse]

theorem lastSet?_storedBy_eq_none_iff : lastSet? key (storedBy service visits) = none ↔
    ∀ document, ¬ Learned visits service key document := by
  simp only [lastSet?_storedBy, List.findSome?_eq_none_iff, List.mem_reverse, storedFor?_eq_none_iff]
  constructor
  · rintro h document ⟨v, hv, hservice, hkey, hanswered⟩
    exact h v hv hservice hkey document hanswered
  · intro h v hv hservice hkey document hanswered
    exact h document ⟨v, hv, hservice, hkey, hanswered⟩

theorem get?_after (s : RemoteSource) (visits : List (Visit RemoteSource World)) (key : String) :
    (s.after visits).cache.entries.get? key =
      ((lastSet? key (storedBy s.service visits)).map fun stored =>
        ⟨s.cache.lifetime.bind stored.2.add?, stored.1⟩).or (s.cache.entries.get? key) := by
  refine get?_entries_replay s.cache (fun event hevent => ?_) key
  obtain ⟨v, -, -, document, -, rfl⟩ := mem_storedBy_iff.1 hevent
  rfl

theorem get?_after_of_not_learned (h : ∀ document, ¬ Learned visits s.service key document) :
    (s.after visits).cache.entries.get? key = s.cache.entries.get? key := by
  rw [get?_after, lastSet?_storedBy_eq_none_iff.2 h]
  rfl

theorem Distinct.eq (h : Distinct visits) {u v : Visit RemoteSource World} (hu : u ∈ visits) (hv : v ∈ visits)
    (hkey : u.key = v.key) (hservice : u.source.service = v.source.service) : u = v :=
  List.inj_on_of_nodup_map h hu hv (Prod.ext hkey hservice)

theorem get?_after_eq_some_iff (h : Distinct visits) :
    (s.after visits).cache.entries.get? key = some e ↔
      Brought s.cache.lifetime visits s.service key e ∨
        (∀ document, ¬ Learned visits s.service key document) ∧ s.cache.entries.get? key = some e := by
  by_cases hnone : ∀ document, ¬ Learned visits s.service key document
  · have hbrought : ¬ Brought s.cache.lifetime visits s.service key e :=
      fun ⟨v, hv, hservice, hkey, hanswered, _⟩ => hnone e.data ⟨v, hv, hservice, hkey, hanswered⟩
    rw [get?_after_of_not_learned hnone, or_iff_right hbrought, and_iff_right hnone]
  · rw [or_iff_left fun hold => hnone hold.1, get?_after]
    rcases hlast : lastSet? key (storedBy s.service visits) with _ | ⟨document, t⟩
    · exact absurd (lastSet?_storedBy_eq_none_iff.1 hlast) hnone
    obtain ⟨earlier, v, later, hsplit, ⟨hservice, hkey, hanswered, rfl⟩, -⟩ :=
      lastSet?_storedBy_eq_some_iff.1 hlast
    have hv : v ∈ visits := by simp [hsplit]
    rw [Option.map_some, Option.some_or, Option.some.injEq]
    constructor
    · rintro rfl
      exact ⟨v, hv, hservice, hkey, hanswered, rfl⟩
    · -- No other fetch of the key was made, so what was stored last is all that was ever stored.
      rintro ⟨u, hu, huservice, hukey, huanswered, hexpires⟩
      obtain rfl := h.eq hv hu (hkey.trans hukey.symm) (hservice.trans huservice.symm)
      obtain ⟨expires, data⟩ := e
      obtain rfl := hanswered.eq huanswered
      obtain rfl : expires = _ := hexpires
      rfl

end

/-- Sources and their surroundings as fetches have left them, of which each met its source as those before it
had left it. -/
structure Replayed (opened : List RemoteSource) (start : World) (sources : List RemoteSource) (w : World)
    (visits : List (Visit RemoteSource World)) : Prop where
  sources_eq : sources = opened.map (after visits)
  sent_eq : w.sent = start.sent ++ visits.flatMap Visit.requests
  source_eq : ∀ earlier v later, visits = earlier ++ v :: later → ∃ s ∈ opened, v.source = s.after earlier

section

variable {opened sources before later : List RemoteSource} {start w : World}
  {visits : List (Visit RemoteSource World)} {v : Visit RemoteSource World}

theorem Replayed.fetched (hservices : (opened.map RemoteSource.service).Nodup)
    (h : Replayed opened start (before ++ v.source :: later) v.world visits) :
    Replayed opened start (before ++ v.fetched.source :: later) v.fetched.world (visits ++ [v]) := by
  obtain ⟨first, rest, rfl, hbefore, hrest⟩ := List.append_eq_map_iff.1 h.sources_eq
  obtain ⟨s, last, rfl, hsource, hlater⟩ := List.map_eq_cons_iff.1 hrest
  have hservice : v.source.service = s.service := by rw [← hsource]; rfl
  have hothers : ∀ other ∈ first ++ last, other.after (visits ++ [v]) = other.after visits :=
    fun other hother => after_concat_other (hservice ▸ service_ne_of_nodup hservices hother)
  refine ⟨?_, ?_, forall_split_concat h.source_eq ⟨s, by simp, hsource.symm⟩⟩
  · rw [List.map_append, List.map_cons, ← after_concat_self hsource.symm, ← hbefore, ← hlater]
    congr 1
    · exact (List.map_congr_left fun other hother => hothers other (List.mem_append_left _ hother)).symm
    · congr 1
      exact (List.map_congr_left fun other hother => hothers other (List.mem_append_right _ hother)).symm
  · rw [Visit.sent_fetched, h.sent_eq, List.flatMap_append, List.append_assoc, List.flatMap_singleton]

theorem run_replayed (hservices : (opened.map RemoteSource.service).Nodup) (keys : List String)
    (query : Option String) (w : World) :
    Replayed opened w (run opened keys query w).source (run opened keys query w).world
      (visitsOf [] opened keys query w) := by
  refine run_visits (I := Replayed opened w) (Replayed.fetched hservices) ⟨?_, ?_, ?_⟩ keys query
  · exact (List.map_id opened).symm
  · exact (List.append_nil _).symm
  · exact fun earlier v later h => absurd h (by simp)

theorem Replayed.services_eq (h : Replayed opened start sources w visits) :
    sources.map RemoteSource.service = opened.map RemoteSource.service := by
  rw [h.sources_eq, List.map_map]
  rfl

theorem Replayed.path_eq (h : Replayed opened start sources w visits) {c : Config} {fs : Files}
    (hopened : ∀ s ∈ opened, Opened c fs s) :
    ∀ s ∈ sources, s.cache.path = some (c.cacheFile s.service.cacheFileName) := by
  intro s hs
  rw [h.sources_eq] at hs
  obtain ⟨o, ho, rfl⟩ := List.mem_map.1 hs
  show (o.cache.replay _).path = _
  rw [path_replay, (hopened o ho).cache_eq]
  rfl

theorem Replayed.exists_kept (h : Replayed opened start sources w visits) (hdistinct : Distinct visits)
    {c : Config} {fs : Files} (hopened : ∀ s ∈ opened, Opened c fs s) {saving : Saving RemoteSource World}
    {w' : World} (hsaving : saving ∈ savesOf sources w') :
    ∃ held, Cache.openFile fs (c.cacheFile saving.source.service.cacheFileName) c.lifetime = .ok held ∧
      ∀ key e, saving.saved.source.cache.entries.get? key = some e ↔
        e.isExpired saving.world.now = false ∧ (Brought c.lifetime visits saving.source.service key e ∨
          (∀ document, ¬ Learned visits saving.source.service key document) ∧
            held.entries.get? key = some e) := by
  obtain ⟨source, t⟩ := saving
  have hmem : source ∈ sources := by
    rw [← map_source_savesOf sources w']
    exact List.mem_map.2 ⟨_, hsaving, rfl⟩
  rw [h.sources_eq] at hmem
  obtain ⟨s, hs, rfl⟩ := List.mem_map.1 hmem
  have hs := hopened s hs
  have hlifetime : s.cache.lifetime = c.lifetime := by rw [hs.cache_eq]
  refine ⟨s.cache, hs.openFile_eq, fun key e => ?_⟩
  have hkept : ((s.after visits).cache.purge t.now).entries.get? key = some e ↔
      e.isExpired t.now = false ∧ (s.after visits).cache.entries.get? key = some e := by
    rw [purge, KeyMap.get?_filter, Option.filter_eq_some_iff, Bool.not_eq_true', and_comm]
  rw [get?_after_eq_some_iff hdistinct, hlifetime] at hkept
  exact hkept

theorem distinct_visitsOf (hservices : (opened.map RemoteSource.service).Nodup) (keys : List String)
    (query : Option String) (w : World) : Distinct (visitsOf [] opened keys query w) :=
  (visitsOf_isPrefix RemoteSource.service service_document opened keys query w).sublist.nodup
    (nodup_fetchPlan keys hservices)

theorem Replayed.exists_opened (h : Replayed opened start sources w visits) (hdistinct : Distinct visits)
    (hv : v ∈ visits) :
    ∃ s ∈ opened, v.source.service = s.service ∧ v.source.request v.key = s.request v.key ∧
      v.shown? = s.cache.get? v.key v.world.now := by
  obtain ⟨earlier, later, hsplit⟩ := List.append_of_mem hv
  obtain ⟨s, hs, hsource⟩ := h.source_eq earlier v later hsplit
  have hservice : v.source.service = s.service := by rw [hsource]; rfl
  -- The fetches before it were of other keys or from the other service.
  have hnew : ∀ document, ¬ Learned earlier s.service v.key document := by
    rintro document ⟨u, hu, huservice, hukey, -⟩
    rw [Distinct, hsplit, List.map_append, List.map_cons, List.nodup_append] at hdistinct
    refine hdistinct.2.2 _ (List.mem_map.2 ⟨u, hu, rfl⟩) _ List.mem_cons_self ?_
    rw [hukey, huservice, hservice]
  refine ⟨s, hs, hservice, by rw [hsource]; rfl, ?_⟩
  rw [Visit.shown?, hsource, get?_eq_bind, get?_eq_bind, get?_after_of_not_learned hnew]

theorem Replayed.requests_eq (h : Replayed opened start sources w visits) (hdistinct : Distinct visits)
    {c : Config} {fs : Files} (hopened : ∀ s ∈ opened, Opened c fs s) (hv : v ∈ visits) :
    ∃ cache, Cache.openFile fs (c.cacheFile v.source.service.cacheFileName) c.lifetime = .ok cache ∧
      (cache.Live v.key v.world.now → v.requests = []) ∧
      (¬ cache.Live v.key v.world.now → v.requests = [v.source.service.requestFor c v.key]) := by
  obtain ⟨s, hs, hservice, hrequest, hshown⟩ := h.exists_opened hdistinct hv
  have hs := hopened s hs
  refine ⟨s.cache, by rw [hservice]; exact hs.openFile_eq, ?_⟩
  rw [live_iff, ← hshown]
  refine ⟨fun ⟨document, hcached⟩ => Visit.requests_of_shown hcached, fun hnone => ?_⟩
  have hcached := Option.eq_none_iff_forall_ne_some.2 fun document hcached => hnone ⟨document, hcached⟩
  rw [Visit.requests_of_not_shown hcached, hrequest, request, hs.baseUrl_eq, hs.userAgent_eq, hservice]
  rfl

theorem nodup_urls {c : Config} (hdistinct : Distinct visits)
    (hrequests : ∀ v ∈ visits, v.requests = [] ∨ v.requests = [v.source.service.requestFor c v.key])
    (service : Service) :
    (((visits.filter fun v => v.source.service = service).flatMap Visit.requests).map
      Http.Request.url).Nodup := by
  have hurls : ∀ v ∈ visits, (v.requests.map Http.Request.url).Sublist [v.source.service.url c ++ v.key] := by
    intro v hv
    rcases hrequests v hv with hv | hv <;> rw [hv]
    · exact List.nil_sublist _
    · exact List.Sublist.refl _
  rw [List.map_flatMap, List.nodup_flatMap]
  refine ⟨fun v hv => (hurls v (List.mem_filter.1 hv).1).nodup (List.nodup_singleton _), ?_⟩
  have hpairwise := (List.pairwise_map.1 hdistinct).filter fun v => v.source.service = service
  refine hpairwise.imp_of_mem fun {u v} hu hv hne url huurl hvurl => hne ?_
  obtain ⟨hu, huservice⟩ := List.mem_filter.1 hu
  obtain ⟨hv, hvservice⟩ := List.mem_filter.1 hv
  have hservice : u.source.service = v.source.service :=
    (of_decide_eq_true huservice).trans (of_decide_eq_true hvservice).symm
  have hurl := List.mem_singleton.1 ((hurls u hu).subset huurl)
  rw [List.mem_singleton.1 ((hurls v hv).subset hvurl), hservice] at hurl
  exact Prod.ext ((String.append_right_inj _).1 hurl).symm hservice

end

end RemoteSource

end AddressLookup
