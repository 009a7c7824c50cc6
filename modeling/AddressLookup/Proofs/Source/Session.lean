import AddressLookup.Proofs.Source.Answers
import AddressLookup.Proofs.Source.Reopen

/-! No lookup is repeated. Without an expiry, what a service has once answered about a key is never asked
for again, through any runs, failures, saves and reopenings, whatever the service would answer later. -/

namespace AddressLookup

namespace RemoteSource

open FieldSource Cache

/-- What a fetch does after others: it gives the answer that one of them got, or asks if none was answered. -/
structure Follows (visits : List (Visit RemoteSource World)) (v : Visit RemoteSource World) : Prop where
  known : ∀ document, Learned visits v.source.service v.key document →
    v.requests = [] ∧ v.fetched.outcome = .ok (Record.ofDocument document)
  unknown : (∀ document, ¬ Learned visits v.source.service v.key document) →
    v.requests = [v.source.request v.key]

structure Remembers (c : Config) (visits : List (Visit RemoteSource World)) (s : RemoteSource) : Prop where
  baseUrl_eq : s.baseUrl = s.service.url c
  userAgent_eq : s.userAgent = some agent
  path_eq : s.cache.path = some (c.cacheFile s.service.cacheFileName)
  lifetime_eq : s.cache.lifetime = none
  get?_eq_some_iff : ∀ key e, s.cache.entries.get? key = some e ↔
    e.expires = none ∧ Learned visits s.service key e.data

section

variable {c : Config} {visits : List (Visit RemoteSource World)} {v : Visit RemoteSource World}
  {s : RemoteSource} {service : Service} {key : String} {document : Json}

theorem Remembers.shows_iff (h : Remembers c visits s) (now : Instant) :
    s.cache.get? key now = some document ↔ Learned visits s.service key document := by
  rw [get?_eq_bind, Option.bind_eq_some_iff]
  constructor
  · rintro ⟨e, hget, hvisible⟩
    obtain ⟨rfl, -⟩ := visible?_eq_some_iff.1 hvisible
    exact ((h.get?_eq_some_iff key e).1 hget).2
  · intro hlearned
    exact ⟨⟨none, document⟩, (h.get?_eq_some_iff key _).2 ⟨rfl, hlearned⟩, rfl⟩

theorem Remembers.concat (h : Remembers c visits s)
    (hv : v.source.service = s.service → ∀ document, ¬ v.Answered document) :
    Remembers c (visits ++ [v]) s := by
  refine ⟨h.baseUrl_eq, h.userAgent_eq, h.path_eq, h.lifetime_eq, fun key e => ?_⟩
  have hnew : ¬ (v.source.service = s.service ∧ v.key = key ∧ v.Answered e.data) :=
    fun hnew => hv hnew.1 e.data hnew.2.2
  rw [h.get?_eq_some_iff, learned_concat, or_iff_left hnew]

theorem Remembers.not_learned (h : Remembers c visits v.source) (hv : v.Answered document) (other : Json) :
    ¬ Learned visits v.source.service v.key other := by
  intro hlearned
  have hshown : v.shown? = some other := (h.shows_iff v.world.now).2 hlearned
  rw [hv.shown?] at hshown
  cases hshown

theorem Remembers.concat_answered (h : Remembers c visits v.source) (hv : v.Answered document) :
    Remembers c (visits ++ [v]) { v.source with cache := v.keep document } := by
  refine ⟨h.baseUrl_eq, h.userAgent_eq, h.path_eq, h.lifetime_eq, fun key e => ?_⟩
  have hexpiry (now : Instant) : v.source.cache.expiryAt now = none := by rw [expiryAt, h.lifetime_eq]; rfl
  show (KeyMap.insert _ _ _).get? key = some e ↔ _
  rw [KeyMap.get?_insert, hexpiry, learned_concat]
  split
  · next hkey =>
    subst hkey
    rw [or_iff_right (h.not_learned hv e.data)]
    constructor
    · intro he
      obtain rfl := Option.some.inj he
      exact ⟨rfl, rfl, rfl, hv⟩
    · rintro ⟨hexpires, -, -, hdata⟩
      obtain ⟨expires, data⟩ := e
      obtain rfl : expires = none := hexpires
      rw [hv.eq hdata]
  · next hkey =>
    have hnew : ¬ (v.source.service = v.source.service ∧ v.key = key ∧ v.Answered e.data) :=
      fun hnew => hkey hnew.2.1.symm
    rw [or_iff_left hnew]
    exact h.get?_eq_some_iff key e

theorem Remembers.fetched (h : Remembers c visits v.source) : Remembers c (visits ++ [v]) v.fetched.source := by
  by_cases hanswered : ∃ document, v.Answered document
  · obtain ⟨document, hv⟩ := hanswered
    rw [hv.fetched]
    exact h.concat_answered hv
  · have hnone : ∀ document, ¬ v.Answered document := fun document hv => hanswered ⟨document, hv⟩
    rw [Visit.source_fetched hnone]
    exact h.concat fun _ => hnone

theorem Remembers.follows (h : Remembers c visits v.source) : Follows visits v := by
  refine ⟨fun document hlearned => ?_, fun hnone => ?_⟩
  · have hshown : v.shown? = some document := (h.shows_iff v.world.now).2 hlearned
    exact ⟨Visit.requests_of_shown hshown, by rw [Visit.fetched_of_shown hshown]⟩
  · refine Visit.requests_of_not_shown (Option.eq_none_iff_forall_ne_some.2 fun document hshown => ?_)
    exact hnone document ((h.shows_iff v.world.now).1 hshown)

theorem Remembers.learned_of_mem (h : Remembers c visits s) {e : String × Entry}
    (he : e ∈ s.cache.entries.entries) : e.2.expires = none ∧ Learned visits s.service e.1 e.2.data :=
  (h.get?_eq_some_iff e.1 e.2).1 (KeyMap.get?_of_mem he)

theorem Remembers.kept (h : Remembers c visits s) : Kept c s.service s := by
  refine ⟨rfl, h.path_eq, fun e he => ?_⟩
  obtain ⟨v, -, -, -, hanswered⟩ := (h.learned_of_mem he).2
  exact Service.admissible_of_readResponse ((Visit.answered_iff hanswered.shown?).1 hanswered)

theorem Remembers.source_save (h : Remembers c visits s) (w : World) : (FieldSource.save s w).source = s := by
  have hentries : (s.cache.purge w.now).entries = s.cache.entries := by
    refine KeyMap.ext_get? fun key => ?_
    rw [purge, KeyMap.get?_filter]
    rcases hget : s.cache.entries.get? key with _ | e
    · rfl
    · rw [Option.filter_some_pos]
      rw [Entry.isExpired, ((h.get?_eq_some_iff key e).1 hget).1]
      rfl
  show { s with cache := { s.cache with entries := (s.cache.purge w.now).entries } } = s
  rw [hentries]

theorem Remembers.openService (h : Remembers c visits s) (hnull : c.expirationDays = none) {fs : Files}
    (hread : fs.read (c.cacheFile s.service.cacheFileName) = .ok s.savedContent)
    (hfaithful : s.cache.Holds Faithful) : openService s.service c (some agent) fs = .ok s := by
  have hopen := openFile_of_document hread
    (hfaithful.mono fun _ hdata => hdata.1.mono fun _ => JsonNumber.Integral.legible) c.lifetime
  rw [if_pos fun e he => (hfaithful e he).2,
    KeyMap.mapValues_eq_self fun e he => (hfaithful e he).reread_eq] at hopen
  have hlifetime : c.lifetime = s.cache.lifetime := by
    rw [h.lifetime_eq, Config.lifetime, hnull]
    rfl
  rw [RemoteSource.openService, hopen, ← h.path_eq, ← h.baseUrl_eq, ← h.userAgent_eq, hlifetime]

end

section

variable {c : Config} {start w : World} {sources : List RemoteSource}
  {visits : List (Visit RemoteSource World)}

theorem source_saveAll (h : ∀ s ∈ sources, Remembers c visits s) (w : World) :
    (saveAll sources w).source = sources := by
  induction sources generalizing w with
  | nil => rfl
  | cons s rest ih =>
    obtain ⟨hs, hrest⟩ := List.forall_mem_cons.1 h
    show (FieldSource.save s w).source :: (saveAll rest _).source = s :: rest
    rw [hs.source_save, ih hrest]

theorem openAll_of_saved {fs : Files} (hsaved : Saved c sources fs)
    (h : ∀ s ∈ sources, Remembers c visits s) (hnull : c.expirationDays = none)
    (hfaithful : ∀ s ∈ sources, s.cache.Holds Faithful) : openAll c fs = .ok sources := by
  have hopen : ∀ s ∈ sources, openService s.service c (some agent) fs = .ok s :=
    fun s hs => (h s hs).openService hnull (hsaved.read s hs) (hfaithful s hs)
  obtain ⟨geo, rdap, rfl, hgeo, hrdap⟩ := exists_pair hsaved.kept
  have hopengeo := hopen geo List.mem_cons_self
  have hopenrdap := hopen rdap (List.mem_cons_of_mem _ List.mem_cons_self)
  rw [hgeo.service_eq] at hopengeo
  rw [hrdap.service_eq] at hopenrdap
  rw [openAll, hopengeo, hopenrdap]

structure Recorded (c : Config) (start : World) (sources : List RemoteSource) (w : World)
    (visits : List (Visit RemoteSource World)) : Prop where
  services : sources.map RemoteSource.service = [.geo, .rdap]
  remembers : ∀ s ∈ sources, Remembers c visits s
  sent : w.sent = start.sent ++ visits.flatMap Visit.requests
  follows : ∀ before v after, visits = before ++ v :: after → Follows before v

theorem Recorded.fetched {before after : List RemoteSource} {v : Visit RemoteSource World}
    (h : Recorded c start (before ++ v.source :: after) v.world visits) :
    Recorded c start (before ++ v.fetched.source :: after) v.fetched.world (visits ++ [v]) := by
  have hsource := h.remembers v.source (List.mem_append_right _ List.mem_cons_self)
  refine ⟨?_, fun s hs => ?_, ?_, forall_split_concat h.follows hsource.follows⟩
  · have hservice : v.fetched.source.service = v.source.service :=
      service_document v.source v.key v.world
    rw [← h.services, List.map_append, List.map_append, List.map_cons, List.map_cons, hservice]
  · -- The other sources ask other services, so they learn nothing from this fetch.
    have hnodup : ((before ++ v.source :: after).map RemoteSource.service).Nodup := by
      rw [h.services]
      decide
    rcases List.mem_cons.1 (List.perm_middle.mem_iff.1 hs) with rfl | hs
    · exact hsource.fetched
    · have hmem : s ∈ before ++ v.source :: after :=
        List.perm_middle.mem_iff.2 (List.mem_cons_of_mem _ hs)
      exact (h.remembers s hmem).concat fun hservice => absurd hservice (service_ne_of_nodup hnodup hs)
  · rw [Visit.sent_fetched, h.sent, List.flatMap_append, List.append_assoc, List.flatMap_singleton]

theorem Recorded.kept (h : Recorded c start sources w visits) :
    List.Forall₂ (Kept c) [.geo, .rdap] sources := by
  rw [← h.services, List.forall₂_map_left_iff, List.forall₂_same]
  exact fun s hs => (h.remembers s hs).kept

theorem Recorded.run (h : Recorded c start sources w visits) (keys : List String) (query : Option String) :
    Recorded c start (run sources keys query w).source (run sources keys query w).world
      (visitsOf visits sources keys query w) :=
  run_visits (I := Recorded c start) Recorded.fetched h keys query

theorem Recorded.saveAll (h : Recorded c start sources w visits) :
    Recorded c start (saveAll sources w).source (saveAll sources w).world visits := by
  rw [source_saveAll h.remembers]
  exact ⟨h.services, h.remembers, (sent_saveAll sources w).trans h.sent, h.follows⟩

theorem Recorded.reopens (h : Recorded c start sources w visits) (hnull : c.expirationDays = none)
    (hanswers : ∀ service key document, Learned visits service key document → Faithful document)
    (hsave : (FieldSource.saveAll sources w).outcome = .ok ()) :
    openAll c (FieldSource.saveAll sources w).world.files = .ok sources := by
  have hsaved := saved_saveAll h.kept hsave
  rw [source_saveAll h.remembers] at hsaved
  exact openAll_of_saved hsaved h.remembers hnull fun s hs e he =>
    hanswers _ _ _ ((h.remembers s hs).learned_of_mem he).2

theorem recorded_of_fresh (hfresh : Fresh c start.files) (hnull : c.expirationDays = none)
    (hopen : openAll c start.files = .ok sources) : Recorded c start sources start [] := by
  rw [openAll_of_fresh hfresh] at hopen
  obtain rfl := Except.ok.inj hopen
  have hlifetime : c.lifetime = none := by rw [Config.lifetime, hnull]; rfl
  have hblank : ∀ service, Remembers c [] (blank c service) := by
    refine fun service => ⟨rfl, rfl, rfl, hlifetime, fun key e => ?_⟩
    simp [blank, Learned]
  refine ⟨rfl, ?_, (List.append_nil _).symm, fun before v after h => absurd h (by simp)⟩
  rw [List.forall_mem_cons, List.forall_mem_singleton]
  exact ⟨hblank .geo, hblank .rdap⟩

end

/-- The sources, their surroundings and the fetches so far, in a program that is used for any number of
lookups, queries and saves, is started again after a save, and meets services that change their answers. -/
inductive Session (c : Config) (start : World) :
    List RemoteSource → World → List (Visit RemoteSource World) → Prop
  | opened {sources : List RemoteSource} (h : openAll c start.files = .ok sources) :
      Session c start sources start []
  | run {sources : List RemoteSource} {w : World} {visits : List (Visit RemoteSource World)}
      (h : Session c start sources w visits) (keys : List String) (query : Option String) :
      Session c start (run sources keys query w).source (run sources keys query w).world
        (visitsOf visits sources keys query w)
  | saved {sources : List RemoteSource} {w : World} {visits : List (Visit RemoteSource World)}
      (h : Session c start sources w visits) :
      Session c start (saveAll sources w).source (saveAll sources w).world visits
  | answersChanged {sources : List RemoteSource} {w : World} {visits : List (Visit RemoteSource World)}
      (h : Session c start sources w visits) (network : Http.Network) :
      Session c start sources { w with network := network } visits
  | reopened {sources opened : List RemoteSource} {w : World} {visits : List (Visit RemoteSource World)}
      (h : Session c start sources w visits) (hsave : (saveAll sources w).outcome = .ok ())
      (hopen : openAll c (saveAll sources w).world.files = .ok opened) :
      Session c start opened (saveAll sources w).world visits

section

variable {c : Config} {start w : World} {sources : List RemoteSource}
  {visits : List (Visit RemoteSource World)}

theorem Session.recorded (hfresh : Fresh c start.files) (hnull : c.expirationDays = none)
    (h : Session c start sources w visits)
    (hanswers : ∀ service key document, Learned visits service key document → Faithful document) :
    Recorded c start sources w visits := by
  -- The answers are assumed of all fetches, so those of an earlier moment satisfy the assumption as well.
  induction h with
  | opened h => exact recorded_of_fresh hfresh hnull h
  | run h keys query ih =>
    refine (ih fun service key document hlearned => ?_).run keys query
    exact hanswers service key document (hlearned.mono fun v hv => mem_visitsOf hv keys query)
  | saved h ih => exact (ih hanswers).saveAll
  | answersChanged h network ih =>
    have hih := ih hanswers
    exact ⟨hih.services, hih.remembers, hih.sent, hih.follows⟩
  | reopened h hsave hopen ih =>
    have hih := ih hanswers
    rw [hih.reopens hnull hanswers hsave] at hopen
    obtain rfl := Except.ok.inj hopen
    exact ⟨hih.services, hih.remembers, (sent_saveAll _ _).trans hih.sent, hih.follows⟩

theorem Recorded.pairwise (h : Recorded c start sources w visits) :
    visits.Pairwise fun u v => u.source.service = v.source.service → u.key = v.key →
      ∀ document other, ¬ (u.Answered document ∧ v.Answered other) := by
  rw [List.pairwise_iff_getElem]
  rintro i j hi hj hij hservice hkey document other ⟨hu, hv⟩
  have hsplit : visits = visits.take j ++ visits[j] :: visits.drop (j + 1) := by
    rw [← List.drop_eq_getElem_cons hj, List.take_append_drop]
  have hmem : visits[i] ∈ visits.take j :=
    List.mem_take_iff_getElem.2 ⟨i, Nat.lt_min.2 ⟨hij, hi⟩, rfl⟩
  have hrequests := ((h.follows _ _ _ hsplit).known document ⟨_, hmem, hservice, hkey, hu⟩).1
  obtain ⟨request, -, hrequest, -⟩ := hv
  rw [hrequests] at hrequest
  cases hrequest

/-- In a session without expiry that starts with no cache files, a service is asked about a key until it has
answered once. From then on each fetch of the key from it gives the record of that answer and asks for nothing,
and all requests of the session are those of its fetches. -/
theorem session_asks_once (hfresh : Fresh c start.files) (hnull : c.expirationDays = none)
    (h : Session c start sources w visits)
    (hanswers : ∀ service key document, Learned visits service key document → Faithful document) :
    w.sent = start.sent ++ visits.flatMap Visit.requests ∧
      (∀ before v after, visits = before ++ v :: after → Follows before v) ∧
      visits.Pairwise (fun u v => u.source.service = v.source.service → u.key = v.key →
        ∀ document other, ¬ (u.Answered document ∧ v.Answered other)) ∧
      ((saveAll sources w).outcome = .ok () →
        openAll c (saveAll sources w).world.files = .ok (saveAll sources w).source) := by
  have hrecorded := h.recorded hfresh hnull hanswers
  refine ⟨hrecorded.sent, hrecorded.follows, hrecorded.pairwise, fun hsave => ?_⟩
  rw [source_saveAll hrecorded.remembers]
  exact hrecorded.reopens hnull hanswers hsave

end

section

def hasTextAtMost : Json → Bool
  | .object [] => true
  | .object [(_, .string _)] => true
  | _ => false

theorem faithful_of_hasTextAtMost {document : Json} (h : hasTextAtMost document = true) :
    Faithful document := by
  unfold hasTextAtMost at h
  split at h
  · exact ⟨.object .nil fun _ hm => absurd hm List.not_mem_nil, by decide⟩
  · next name text =>
    refine ⟨.object (List.pairwise_singleton _ _) fun m hm => ?_, ?_⟩
    · rw [List.mem_singleton.1 hm]
      exact .string text
    · simp [Shallow, Json.nesting, Json.membersNesting, dataDepth, Json.depthLimit]
  · cases h

/-- The registry fails at first and later knows nothing of the address. After the failed run it alone is asked
again, by a program started anew, while the other service would give another answer by then. -/
theorem session_asks_once_after_failure :
    let c := { Config.standard with expirationDays := none }
    let start : World := .initial ⟨[], .top⟩ (countryNetwork "NO" 503) (.still ⟨0, 0, by decide, by decide⟩)
    let blanks := [blank c .geo, blank c .rdap]
    let failed := run blanks ["1.1.1.1"] none start
    let visits := visitsOf [] blanks ["1.1.1.1"] none start
    let changed := { failed.world with network := countryNetwork "SE" 404 }
    let reopened := (saveAll failed.source changed).world
    let repeated := run failed.source ["1.1.1.1"] none reopened
    let visits' := visitsOf visits failed.source ["1.1.1.1"] none reopened
    Fresh c start.files ∧ Session c start repeated.source repeated.world visits' ∧
      (∀ service key document, Learned visits' service key document → Faithful document) ∧
      visits'.length = 4 ∧ (∀ before v after, visits' = before ++ v :: after → Follows before v) ∧
      repeated.world.sent = visits'.flatMap Visit.requests ∧
      repeated.world.sent = [(blank c .geo).request "1.1.1.1", (blank c .rdap).request "1.1.1.1",
        (blank c .rdap).request "1.1.1.1"] := by
  intro c start blanks failed visits changed reopened repeated visits'
  have hfresh : Fresh c start.files := by
    intro service
    cases service <;> rfl
  have hread : ∀ v ∈ visits', (v.source.service.readResponse v.key
      (v.world.exchange (v.source.request v.key)).response).toOption.all hasTextAtMost = true := by
    decide +kernel
  have hanswers' : ∀ service key document, Learned visits' service key document → Faithful document := by
    rintro service key document ⟨v, hv, -, -, hanswered⟩
    have hdocument := hread v hv
    rw [(Visit.answered_iff hanswered.shown?).1 hanswered] at hdocument
    exact faithful_of_hasTextAtMost hdocument
  have hanswers : ∀ service key document, Learned visits service key document → Faithful document :=
    fun service key document h => hanswers' service key document (h.mono fun v hv => mem_visitsOf hv _ _)
  have hchanged : Session c start failed.source changed visits :=
    ((Session.opened (openAll_of_fresh hfresh)).run ["1.1.1.1"] none).answersChanged (countryNetwork "SE" 404)
  have hsave : (saveAll failed.source changed).outcome = .ok () := by decide +kernel
  have hopen := (hchanged.recorded hfresh rfl hanswers).reopens rfl hanswers hsave
  have hrepeated := (hchanged.reopened hsave hopen).run ["1.1.1.1"] none
  obtain ⟨hsent, hfollows, -, -⟩ := session_asks_once hfresh rfl hrepeated hanswers'
  exact ⟨hfresh, hrepeated, hanswers', by decide +kernel, hfollows, hsent, by decide +kernel⟩

end

end RemoteSource

end AddressLookup
