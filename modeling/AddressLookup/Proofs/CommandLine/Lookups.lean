import AddressLookup.CommandLine.Run
import AddressLookup.Proofs.Address.Listing
import AddressLookup.Proofs.Source.Replay

/-! What a run does outside itself once it comes to its lookups: which requests it sends, and what it leaves
in the cache files. Both hold wherever the lookups end, and the caches are saved even if the query is bad. -/

namespace AddressLookup

open FieldSource RemoteSource

namespace CommandLine

/-- The run comes to its lookups, of the addresses in the text, from the sources that its settings open. -/
structure Ready (c : CommandLine) (w : World) (text : String) (config : Config)
    (opened : List RemoteSource) : Prop where
  explain_eq : c.explain = false
  input : match c.file with
    | some path => w.files.readText path = .ok text
    | none => c.text = some text
  settings_eq : c.settings w = .ok config
  openAll_eq : RemoteSource.openAll config w.files = .ok opened

section

variable {c : CommandLine} {w : World} {text : String} {config : Config} {opened : List RemoteSource}

theorem Ready.addresses_eq (h : c.Ready w text config opened) :
    c.addresses w.files = .ok (Address.extract text) := by
  have hinput := h.input
  unfold addresses
  split at hinput
  · next path hfile => simp only [hfile, hinput]
  · next hfile => simp only [hfile, hinput]

theorem Ready.run_eq (h : c.Ready w text config opened) (color : Bool) :
    let ran := FieldSource.run opened (Address.extract text) c.query w
    c.run color w = c.conclude color (saveAll ran.source ran.world).world ran.outcome := by
  intro ran
  have hsources : c.sources w = .ok opened := by
    rw [sources, h.settings_eq]
    exact h.openAll_eq
  rw [run, h.explain_eq, if_neg Bool.false_ne_true, runLookup]
  simp only [h.addresses_eq, hsources]
  rfl

theorem world_conclude (c : CommandLine) (color : Bool) (w : World) (outcome : Except Error Dataset) :
    (c.conclude color w outcome).world = w := by
  cases outcome <;> rfl

theorem Ready.world_run (h : c.Ready w text config opened) (color : Bool) :
    let ran := FieldSource.run opened (Address.extract text) c.query w
    (c.run color w).world = (saveAll ran.source ran.world).world := by
  intro ran
  rw [h.run_eq color, world_conclude]

theorem Ready.services_nodup (h : c.Ready w text config opened) :
    (opened.map RemoteSource.service).Nodup := by
  rw [(opened_of_openAll h.openAll_eq).1]
  decide

theorem Ready.replayed (h : c.Ready w text config opened) :
    let ran := FieldSource.run opened (Address.extract text) c.query w
    let visits := visitsOf [] opened (Address.extract text) c.query w
    Replayed opened w ran.source ran.world visits ∧ Distinct visits :=
  ⟨run_replayed h.services_nodup _ _ w, distinct_visitsOf h.services_nodup _ _ w⟩

theorem Ready.sent_run (h : c.Ready w text config opened) (color : Bool) :
    (c.run color w).world.sent =
      w.sent ++ (visitsOf [] opened (Address.extract text) c.query w).flatMap Visit.requests := by
  rw [h.world_run color, sent_saveAll]
  exact h.replayed.1.sent_eq

/-- The requests of a run with no query or a good one. Each distinct address in the text is fetched, as it
comes first, from the one service and then from the other, up to the first fetch that fails, which has sent a
request; a fetch sends one unless the cache file had an entry that has not expired by then. So every request
is for an address in the text, under the URL of a service, and none is sent twice to a service. -/
theorem run_requests (h : c.Ready w text config opened)
    (hquery : ∀ query ∈ c.query, ∃ q, Query.parse query = .ok q) (color : Bool) :
    let visits := visitsOf [] opened (Address.extract text) c.query w
    (c.run color w).world.sent = w.sent ++ visits.flatMap Visit.requests ∧
      (∃ failure, CarriedOut RemoteSource.service (fetchPlan (Address.extract text) [.geo, .rdap]) visits
        failure) ∧
      (∀ v ∈ visits, ∀ e, v.fetched.outcome = .error e → v.requests ≠ []) ∧
      (∀ v ∈ visits, ∃ cache,
        Cache.openFile w.files (config.cacheFile v.source.service.cacheFileName) config.lifetime = .ok cache ∧
          (cache.Live v.key v.world.now → v.requests = []) ∧
          (¬ cache.Live v.key v.world.now → v.requests = [v.source.service.requestFor config v.key])) ∧
      (∀ request ∈ visits.flatMap Visit.requests, ∃ service key,
        request = Service.requestFor service config key ∧ Address.isValid key = true ∧
          key.toList <:+: text.toList) ∧
      ∀ service, (((visits.filter fun v => v.source.service = service).flatMap Visit.requests).map
        Http.Request.url).Nodup := by
  intro visits
  obtain ⟨hservices, hopened⟩ := opened_of_openAll h.openAll_eq
  obtain ⟨hreplayed, hdistinct⟩ := h.replayed
  obtain ⟨failure, hcarried⟩ := exists_carriedOut RemoteSource.service service_document opened
    (Address.extract text) hquery w
  rw [hservices] at hcarried
  have hlooked := fun v (hv : v ∈ visits) => hreplayed.requests_eq hdistinct hopened hv
  have hrequests : ∀ v ∈ visits,
      v.requests = [] ∨ v.requests = [v.source.service.requestFor config v.key] := by
    intro v hv
    obtain ⟨cache, -, hlive, hnone⟩ := hlooked v hv
    exact (Classical.em (cache.Live v.key v.world.now)).imp hlive hnone
  refine ⟨h.sent_run color, ⟨failure, hcarried⟩, fun v _ e he => ?_, hlooked, fun request hrequest => ?_,
    nodup_urls hdistinct hrequests⟩
  · rw [Visit.requests_of_failed he]
    exact List.cons_ne_nil _ _
  · obtain ⟨v, hv, hrequest⟩ := List.mem_flatMap.1 hrequest
    have hkey : v.key ∈ Address.extract text := (mem_fetchPlan.1 (hcarried.mem_planned hv)).1
    refine ⟨v.source.service, v.key, ?_, Address.isValid_of_mem_extract hkey,
      Address.infix_of_mem_extract hkey⟩
    rcases hrequests v hv with hsent | hsent <;> rw [hsent] at hrequest
    · cases hrequest
    · exact List.mem_singleton.1 hrequest

def heldText : String :=
  "\x7b\"1.1.1.1\":[null,1],\"2.2.2.2\":[\"1969-12-31T00:00:00Z\",2]\x7d"

def heldFiles : Files :=
  let directory := Place.top.into Config.standard.cacheDirectory.bytes
  ⟨[(directory, .directory), (directory.into Service.geo.fileName, .file heldText.toUTF8)], .top⟩

def heldSources : List RemoteSource :=
  (RemoteSource.openAll .standard heldFiles).toOption.getD []

def heldStart : World :=
  .initial heldFiles (countryNetwork "NO" 503) (.still .epoch)

def ofText (text : String) (query : Option String) : CommandLine :=
  { empty with text := some text, query := query }

theorem ready_ofText (text : String) (query : Option String) :
    (ofText text query).Ready heldStart text .standard heldSources := by
  refine ⟨rfl, rfl, ?_, ?_⟩
  · show (Config.resolve heldFiles none).map (Config.override · none) = .ok .standard
    decide +kernel
  · have hopens : (RemoteSource.openAll .standard heldFiles).toOption.isSome = true := by decide +kernel
    show RemoteSource.openAll .standard heldFiles = .ok heldSources
    rw [heldSources]
    cases hopen : RemoteSource.openAll .standard heldFiles with
    | error e =>
      rw [hopen] at hopens
      cases hopens
    | ok sources => rfl

/-- The first address is known to the one service, so only the other is asked, and the second never. -/
theorem run_requests_until_failure :
    let c := ofText "1.1.1.1, 2.2.2.2" (some "GET *")
    let keys := ["1.1.1.1", "2.2.2.2"]
    let visits := visitsOf [] heldSources keys c.query heldStart
    c.Ready heldStart "1.1.1.1, 2.2.2.2" .standard heldSources ∧
      (∀ query ∈ c.query, ∃ q, Query.parse query = .ok q) ∧
      (∃ failure, CarriedOut RemoteSource.service (fetchPlan keys [.geo, .rdap]) visits failure) ∧
      (c.run false heldStart).world.sent = visits.flatMap Visit.requests ∧
      visits.length = 2 ∧
      (c.run false heldStart).world.sent = [Service.rdap.requestFor .standard "1.1.1.1"] := by
  intro c keys visits
  have hready : c.Ready heldStart _ _ _ := ready_ofText _ _
  have hquery : ∀ query ∈ c.query, ∃ q, Query.parse query = .ok q := by
    rintro query hquery
    obtain rfl := Option.some.inj hquery
    exact ⟨⟨.all, []⟩, by decide +kernel⟩
  have hextract : Address.extract "1.1.1.1, 2.2.2.2" = keys := by decide +kernel
  obtain ⟨hsent, hcarried, -⟩ := run_requests hready hquery false
  rw [hextract] at hsent hcarried
  have hrun : visits.length = 2 ∧
      (c.run false heldStart).world.sent = [Service.rdap.requestFor .standard "1.1.1.1"] := by decide +kernel
  exact ⟨hready, hquery, hcarried, hsent.trans (List.nil_append _), hrun⟩

/-- Both caches are saved at the end of the lookups, and a file whose save goes through then has the entries
that have not expired by then: those of the answers that its service gave in this run, also before a failure,
and for other keys those that the file had. A request that failed brings no entry. -/
theorem run_saves_answers (h : c.Ready w text config opened) (color : Bool) :
    let ran := FieldSource.run opened (Address.extract text) c.query w
    let visits := visitsOf [] opened (Address.extract text) c.query w
    let saves := savesOf ran.source ran.world
    (c.run color w).world.sent = w.sent ++ visits.flatMap Visit.requests ∧
      saves.map (fun saving => saving.source.service) = [.geo, .rdap] ∧
      ∀ saving ∈ saves, saving.saved.outcome = .ok () →
        let service := saving.source.service
        let file := config.cacheFile service.cacheFileName
        ∃ held kept, Cache.openFile w.files file config.lifetime = .ok held ∧
          (c.run color w).world.files.read file = .ok (Cache.documentText kept).toUTF8 ∧
          (∀ key e, kept.get? key = some e ↔ e.isExpired saving.world.now = false ∧
            (Brought config.lifetime visits service key e ∨
              (∀ document, ¬ Learned visits service key document) ∧ held.entries.get? key = some e)) ∧
          ∀ v ∈ visits, v.source.service = service → ∀ failure, v.fetched.outcome = .error failure →
            ∀ e, kept.get? v.key = some e → held.entries.get? v.key = some e := by
  intro ran visits saves
  obtain ⟨hservices, hopened⟩ := opened_of_openAll h.openAll_eq
  obtain ⟨hreplayed, hdistinct⟩ := h.replayed
  refine ⟨h.sent_run color, ?_, fun saving hsaving hsave => ?_⟩
  · have hsources : saves.map Saving.source = ran.source := map_source_savesOf ran.source ran.world
    rw [← hservices, ← hreplayed.services_eq, ← hsources, List.map_map]
    rfl
  · intro service file
    have hnodup : (ran.source.map RemoteSource.service).Nodup := by
      rw [hreplayed.services_eq]
      exact h.services_nodup
    have hread := read_of_mem_savesOf (hreplayed.path_eq hopened) hnodup hsaving hsave
    obtain ⟨held, hheld, hkept⟩ := hreplayed.exists_kept hdistinct hopened hsaving
    refine ⟨held, saving.saved.source.cache.entries, hheld, ?_, hkept, fun v hv hservice failure hfailure e he => ?_⟩
    · rw [h.world_run color]
      exact hread
    · obtain ⟨-, ⟨u, hu, huservice, hukey, hanswered, -⟩ | ⟨-, hold⟩⟩ := (hkept v.key e).1 he
      · -- The key was not fetched again after the failure.
        obtain rfl := hdistinct.eq hu hv hukey (huservice.trans hservice.symm)
        exact absurd hanswered (Visit.not_answered_of_failed hfailure e.data)
      · exact hold

/-- The answer of the one service, before the other fails, takes the place of the expired entry in the file. -/
theorem run_saves_answers_until_failure :
    let c := ofText "2.2.2.2, 1.1.1.1" none
    let keys := ["2.2.2.2", "1.1.1.1"]
    let ran := FieldSource.run heldSources keys c.query heldStart
    let visits := visitsOf [] heldSources keys c.query heldStart
    c.Ready heldStart "2.2.2.2, 1.1.1.1" .standard heldSources ∧
      (∀ saving ∈ savesOf ran.source ran.world, saving.saved.outcome = .ok () ∧
        let service := saving.source.service
        let file := Config.standard.cacheFile service.cacheFileName
        ∃ held kept, Cache.openFile heldFiles file Config.standard.lifetime = .ok held ∧
          (c.run false heldStart).world.files.read file = .ok (Cache.documentText kept).toUTF8 ∧
          ∀ key e, kept.get? key = some e ↔ e.isExpired saving.world.now = false ∧
            (Brought Config.standard.lifetime visits service key e ∨
              (∀ document, ¬ Learned visits service key document) ∧ held.entries.get? key = some e)) ∧
      (c.run false heldStart).outcome =
        .error (.failed (.lookup "rdap" "2.2.2.2" "unexpected status 503 Service Unavailable")) ∧
      (c.run false heldStart).world.files.readText (Config.standard.cacheFile "geo-cache.json") =
        .ok ("\x7b\"1.1.1.1\":\x7b\"expires_at\":null,\"data\":1\x7d," ++ "\"2.2.2.2\":\x7b" ++
          "\"expires_at\":\"1970-01-31T00:00:00Z\",\"data\":\x7b\"country\":\"NO\"\x7d\x7d\x7d") := by
  intro c keys ran visits
  have hready : c.Ready heldStart _ _ _ := ready_ofText _ _
  have hextract : Address.extract "2.2.2.2, 1.1.1.1" = keys := by decide +kernel
  obtain ⟨-, -, hsaved⟩ := run_saves_answers hready false
  rw [hextract] at hsaved
  refine ⟨hready, fun saving hsaving => ?_, by decide +kernel⟩
  have hsaves : (saveAll ran.source ran.world).outcome = .ok () := by decide +kernel
  have hsave := saveAll_eq_ok_iff.1 hsaves saving hsaving
  obtain ⟨held, kept, hheld, hread, hkept, -⟩ := hsaved saving hsaving hsave
  exact ⟨hsave, held, kept, hheld, hread, hkept⟩

end

end CommandLine

end AddressLookup
