import AddressLookup.Proofs.Cache.Storage
import AddressLookup.Proofs.Files.Stages
import AddressLookup.Proofs.Json.Reading
import AddressLookup.Proofs.Source.Merge
import AddressLookup.Proofs.Source.Paths

/-! Opening the sources again after they were saved. Whatever the services answer in a run, saved caches can
be opened exactly when none of them keeps a document that is nested deeper than a cache file can hold;
such documents are accepted from a service, since there they may be nested two levels deeper. -/

namespace AddressLookup

def Instant.epoch : Instant :=
  ⟨0, 0, by decide, by decide⟩

namespace Service

theorem admissible_of_readResponse {s : Service} {key : String} {response : Option Http.Response}
    {document : Json} (h : s.readResponse key response = .ok document) :
    Json.Admissible Json.depthLimit document := by
  unfold readResponse at h
  split at h
  · cases h
  · split at h
    · obtain rfl := Except.ok.inj h
      exact ⟨.object .nil fun _ hm => absurd hm List.not_mem_nil, by decide⟩
    · split at h
      · unfold documentOfBody at h
        split at h
        · next heq =>
          obtain rfl := Except.ok.inj h
          obtain ⟨text, -, hparse⟩ := Option.bind_eq_some_iff.1 heq
          exact Json.admissible_of_parse hparse
        · cases h
      · cases h

theorem readResponse_compact {s : Service} {key : String} {status : Nat} {v : Json}
    (hstatus : 200 ≤ status ∧ status < 300) (h : Json.Regular JsonNumber.Legible v)
    (hnesting : v.nesting ≤ Json.depthLimit) :
    s.readResponse key (some ⟨status, v.compact.toUTF8⟩) = .ok v.reread := by
  have hknown : (decide (status = 404) && s.acceptsUnknown) = false := by
    rw [decide_eq_false (by omega), Bool.false_and]
  have hsuccess : Http.Response.isSuccess ⟨status, v.compact.toUTF8⟩ = true :=
    Bool.and_eq_true_iff.2 ⟨decide_eq_true hstatus.1, decide_eq_true hstatus.2⟩
  have hbody : documentOfBody v.compact.toUTF8 = .ok v.reread := by
    unfold documentOfBody
    rw [fromUTF8?_toUTF8, Option.bind_some, Json.parse_compact h hnesting]
  unfold readResponse
  simp only [hknown, hsuccess, hbody]
  rfl

end Service

namespace RemoteSource

open FieldSource Cache

/-- The source of a service as a run keeps it: its cache belongs to the file of the service, and every
document in it is one that a service can have answered. -/
structure Kept (c : Config) (service : Service) (s : RemoteSource) : Prop where
  service_eq : s.service = service
  path_eq : s.cache.path = some (c.cacheFile service.cacheFileName)
  holds : s.cache.Holds (Json.Admissible Json.depthLimit)

section

variable {c : Config} {service : Service} {s : RemoteSource}

theorem Kept.fetch (h : Kept c service s) (key : String) (w : World) :
    Kept c service (FieldSource.fetch s key w).source := by
  show Kept c service (s.document key w).source
  unfold document
  split
  · exact h
  · unfold ask
    simp only []
    split
    · exact h
    · next document heq =>
      exact ⟨h.service_eq, h.path_eq,
        h.holds.set (Service.admissible_of_readResponse heq) key _⟩

theorem Kept.save (h : Kept c service s) (w : World) :
    Kept c service (FieldSource.save s w).source :=
  ⟨h.service_eq, h.path_eq, h.holds.purge w.now⟩

def savedContent (s : RemoteSource) : ByteArray :=
  (documentText s.cache.entries).toUTF8

theorem read_save_other (hpath : s.cache.path = some (c.cacheFile service.cacheFileName)) {w : World}
    {other : Service} (hne : other ≠ service) {content : ByteArray}
    (hread : w.files.read (c.cacheFile other.cacheFileName) = .ok content) :
    (FieldSource.save s w).world.files.read (c.cacheFile other.cacheFileName) = .ok content := by
  have hlast : ∀ t : Service, (c.cacheFile t.cacheFileName).steps.getLast? = some (.into t.fileName) :=
    fun t => Path.getLast?_steps_join c.cacheDirectory t.plain_fileName
  have htemporary : (c.cacheFile service.cacheFileName).temporary.steps.getLast? =
      some (.into service.temporaryName) := by
    rw [Service.temporary_cacheFile]
    exact Path.getLast?_steps_join c.cacheDirectory service.plain_temporaryName
  show (s.cache.save w.now w.files).files.read _ = _
  rw [files_save hpath]
  -- Neither the file nor the temporary file beside it bears the name of the other cache.
  exact FilePlan.read_other_of_mem_states_replace (FilePlan.run_mem_states _ _) hread (hlast service)
    htemporary (hlast other) (Service.fileName_ne hne) (service.fileName_ne_temporaryName other)

theorem read_saveAll_other {sources : List RemoteSource} {w : World}
    (hpaths : ∀ s ∈ sources, s.cache.path = some (c.cacheFile s.service.cacheFileName))
    (hne : ∀ s ∈ sources, service ≠ s.service) {content : ByteArray}
    (hread : w.files.read (c.cacheFile service.cacheFileName) = .ok content) :
    (saveAll sources w).world.files.read (c.cacheFile service.cacheFileName) = .ok content := by
  induction sources generalizing w with
  | nil => exact hread
  | cons s rest ih =>
    obtain ⟨hpath, hpaths⟩ := List.forall_mem_cons.1 hpaths
    obtain ⟨hs, hne⟩ := List.forall_mem_cons.1 hne
    exact ih hpaths hne (read_save_other hpath hs hread)

theorem read_of_mem_savesOf {sources : List RemoteSource} {w : World}
    (hpaths : ∀ s ∈ sources, s.cache.path = some (c.cacheFile s.service.cacheFileName))
    (hservices : (sources.map RemoteSource.service).Nodup) {saving : Saving RemoteSource World}
    (hsaving : saving ∈ savesOf sources w) (hsave : saving.saved.outcome = .ok ()) :
    (saveAll sources w).world.files.read (c.cacheFile saving.source.service.cacheFileName) =
      .ok saving.saved.source.savedContent := by
  induction sources generalizing w with
  | nil => cases hsaving
  | cons s rest ih =>
    obtain ⟨hpath, hpaths⟩ := List.forall_mem_cons.1 hpaths
    obtain ⟨hnew, hservices⟩ := List.nodup_cons.1 hservices
    rcases List.mem_cons.1 hsaving with rfl | hsaving
    · have hothers : ∀ other ∈ rest, s.service ≠ other.service :=
        fun other hother heq => hnew (List.mem_map.2 ⟨other, hother, heq.symm⟩)
      exact read_saveAll_other hpaths hothers (Cache.read_save hpath hsave)
    · exact ih hpaths hservices hsaving

theorem sent_saveAll (sources : List RemoteSource) (w : World) : (saveAll sources w).world.sent = w.sent := by
  induction sources generalizing w with
  | nil => rfl
  | cons s rest ih => exact ih (FieldSource.save s w).world

theorem openService_of_read {fs : Files} (h : Kept c service s)
    (hread : fs.read (c.cacheFile service.cacheFileName) = .ok s.savedContent)
    (userAgent : Option String) :
    (s.cache.Holds Shallow ∧ ∃ opened, openService service c userAgent fs = .ok opened) ∨
      (¬ s.cache.Holds Shallow ∧ openService service c userAgent fs =
        .error (.badCache (c.cacheFile service.cacheFileName))) := by
  have hopen := openFile_of_document hread
    (h.holds.mono fun _ hdata => hdata.regular.mono fun _ => JsonNumber.InRange.legible) c.lifetime
  by_cases hshallow : ∀ e ∈ s.cache.entries.entries, Shallow e.2.data
  · rw [if_pos hshallow] at hopen
    refine .inl ⟨hshallow, ?_⟩
    unfold openService
    rw [hopen]
    exact ⟨_, rfl⟩
  · rw [if_neg hshallow] at hopen
    refine .inr ⟨hshallow, ?_⟩
    unfold openService
    rw [hopen]

structure Opened (c : Config) (fs : Files) (s : RemoteSource) : Prop where
  baseUrl_eq : s.baseUrl = s.service.url c
  userAgent_eq : s.userAgent = some agent
  openFile_eq : Cache.openFile fs (c.cacheFile s.service.cacheFileName) c.lifetime = .ok s.cache

theorem Opened.cache_eq {fs : Files} (h : Opened c fs s) :
    s.cache = ⟨some (c.cacheFile s.service.cacheFileName), c.lifetime, s.cache.entries⟩ :=
  Cache.eq_of_openFile h.openFile_eq

theorem opened_of_openService {fs : Files} (h : openService service c (some agent) fs = .ok s) :
    s.service = service ∧ Opened c fs s := by
  unfold openService at h
  split at h
  · cases h
  · next cache hopen =>
    obtain rfl := Except.ok.inj h
    exact ⟨rfl, rfl, rfl, hopen⟩

theorem opened_of_openAll {fs : Files} {sources : List RemoteSource} (h : openAll c fs = .ok sources) :
    sources.map RemoteSource.service = [.geo, .rdap] ∧ ∀ s ∈ sources, Opened c fs s := by
  unfold openAll at h
  split at h
  · cases h
  next geo hgeo =>
  split at h
  · cases h
  next rdap hrdap =>
  obtain rfl := Except.ok.inj h
  obtain ⟨hservice, hgeo⟩ := opened_of_openService hgeo
  obtain ⟨hservice', hrdap⟩ := opened_of_openService hrdap
  refine ⟨by rw [List.map_cons, List.map_singleton, hservice, hservice'], ?_⟩
  rw [List.forall_mem_cons, List.forall_mem_singleton]
  exact ⟨hgeo, hrdap⟩

def Fresh (c : Config) (fs : Files) : Prop :=
  ∀ service : Service, fs.readText (c.cacheFile service.cacheFileName) = .error .notFound

def blank (c : Config) (service : Service) : RemoteSource :=
  ⟨service, service.url c, some agent, ⟨some (c.cacheFile service.cacheFileName), c.lifetime, ∅⟩⟩

theorem kept_blank (c : Config) (service : Service) : Kept c service (blank c service) :=
  ⟨rfl, rfl, holds_empty _ _⟩

theorem openService_of_fresh {fs : Files} (h : Fresh c fs) (service : Service) :
    openService service c (some agent) fs = .ok (blank c service) := by
  unfold openService openFile
  rw [h service]
  rfl

theorem openAll_of_fresh {fs : Files} (h : Fresh c fs) :
    openAll c fs = .ok [blank c .geo, blank c .rdap] := by
  rw [openAll, openService_of_fresh h, openService_of_fresh h]

end

/-- The sources and their surroundings after any number of lookups, queries and saves in a run. -/
inductive Reached (c : Config) (start : World) : List RemoteSource → World → Prop
  | opened {sources : List RemoteSource} (h : openAll c start.files = .ok sources) :
      Reached c start sources start
  | run {sources : List RemoteSource} {w : World} (h : Reached c start sources w)
      (keys : List String) (query : Option String) :
      Reached c start (run sources keys query w).source (run sources keys query w).world
  | saved {sources : List RemoteSource} {w : World} (h : Reached c start sources w) :
      Reached c start (saveAll sources w).source (saveAll sources w).world

section

variable {c : Config} {start : World} {sources : List RemoteSource} {w : World}

theorem Reached.kept (h : Reached c start sources w) (hfresh : Fresh c start.files) :
    List.Forall₂ (Kept c) [.geo, .rdap] sources := by
  induction h with
  | opened h =>
    rw [openAll_of_fresh hfresh] at h
    obtain rfl := Except.ok.inj h
    exact .cons (kept_blank c .geo) (.cons (kept_blank c .rdap) .nil)
  | run _ keys query ih => exact run_keeps (fun hs => hs.fetch) ih keys query _
  | saved _ ih => exact saveAll_keeps (fun hs => hs.save) ih _

theorem exists_pair (h : List.Forall₂ (Kept c) [.geo, .rdap] sources) :
    ∃ geo rdap, sources = [geo, rdap] ∧ Kept c .geo geo ∧ Kept c .rdap rdap := by
  obtain ⟨geo, _, hgeo, hrest, rfl⟩ := List.forall₂_cons_left_iff.1 h
  obtain ⟨rdap, _, hrdap, hnil, rfl⟩ := List.forall₂_cons_left_iff.1 hrest
  obtain rfl := List.forall₂_nil_left_iff.1 hnil
  exact ⟨geo, rdap, rfl, hgeo, hrdap⟩

structure Saved (c : Config) (sources : List RemoteSource) (fs : Files) : Prop where
  kept : List.Forall₂ (Kept c) [.geo, .rdap] sources
  read : ∀ s ∈ sources, fs.read (c.cacheFile s.service.cacheFileName) = .ok s.savedContent

theorem saved_saveAll (h : List.Forall₂ (Kept c) [.geo, .rdap] sources)
    (hsave : (saveAll sources w).outcome = .ok ()) :
    Saved c (saveAll sources w).source (saveAll sources w).world.files := by
  refine ⟨saveAll_keeps (fun hs => hs.save) h w, fun s hs => ?_⟩
  rw [← map_saved_savesOf] at hs
  obtain ⟨saving, hsaving, rfl⟩ := List.mem_map.1 hs
  obtain ⟨geo, rdap, rfl, hgeo, hrdap⟩ := exists_pair h
  refine read_of_mem_savesOf ?_ ?_ hsaving (saveAll_eq_ok_iff.1 hsave saving hsaving)
  · rw [List.forall_mem_cons, List.forall_mem_singleton, hgeo.service_eq, hrdap.service_eq]
    exact ⟨hgeo.path_eq, hrdap.path_eq⟩
  · rw [List.map_cons, List.map_singleton, hgeo.service_eq, hrdap.service_eq]
    decide

variable {fs : Files}

theorem Saved.openAll (h : Saved c sources fs) :
    ((∀ s ∈ sources, s.cache.Holds Shallow) ∧ ∃ reopened, openAll c fs = .ok reopened) ∨
      ∃ s ∈ sources, ¬ s.cache.Holds Shallow ∧
        openAll c fs = .error (.badCache (c.cacheFile s.service.cacheFileName)) := by
  obtain ⟨geo, rdap, rfl, hgeo, hrdap⟩ := exists_pair h.kept
  have hreadgeo := h.read geo List.mem_cons_self
  have hreadrdap := h.read rdap (List.mem_cons_of_mem _ List.mem_cons_self)
  rw [hgeo.service_eq] at hreadgeo
  rw [hrdap.service_eq] at hreadrdap
  unfold RemoteSource.openAll
  obtain ⟨hshallowgeo, openedgeo, hopengeo⟩ | ⟨hdeep, hopen⟩ :=
    openService_of_read hgeo hreadgeo (some agent)
  · rw [hopengeo]
    obtain ⟨hshallowrdap, openedrdap, hopenrdap⟩ | ⟨hdeep, hopen⟩ :=
      openService_of_read hrdap hreadrdap (some agent)
    · rw [hopenrdap]
      refine .inl ⟨?_, _, rfl⟩
      rw [List.forall_mem_cons, List.forall_mem_singleton]
      exact ⟨hshallowgeo, hshallowrdap⟩
    · refine .inr ⟨rdap, List.mem_cons_of_mem _ List.mem_cons_self, hdeep, ?_⟩
      rw [hopen, hrdap.service_eq]
  · refine .inr ⟨geo, List.mem_cons_self, hdeep, ?_⟩
    rw [hopen, hgeo.service_eq]

theorem Saved.exists_openAll_iff (h : Saved c sources fs) :
    (∃ reopened, RemoteSource.openAll c fs = .ok reopened) ↔
      ∀ s ∈ sources, s.cache.Holds Shallow := by
  obtain ⟨hshallow, hopen⟩ | ⟨s, hs, hdeep, hopen⟩ := h.openAll
  · exact iff_of_true hopen hshallow
  · rw [hopen]
    exact iff_of_false (fun ⟨_, h⟩ => by cases h) fun h => hdeep (h s hs)

/-- The sources that were saved can be opened again exactly when every document that their caches keep is
nested no deeper than a cache file can hold; otherwise the file of such a cache is refused. -/
theorem openAll_saveAll (hfresh : Fresh c start.files) (h : Reached c start sources w)
    (hsave : (saveAll sources w).outcome = .ok ()) :
    ((∃ reopened, openAll c (saveAll sources w).world.files = .ok reopened) ↔
        ∀ s ∈ (saveAll sources w).source, s.cache.Holds Shallow) ∧
      ∀ e, openAll c (saveAll sources w).world.files = .error e →
        ∃ s ∈ (saveAll sources w).source,
          ¬ s.cache.Holds Shallow ∧ e = .badCache (c.cacheFile s.service.cacheFileName) := by
  have hsaved := saved_saveAll (h.kept hfresh) hsave
  refine ⟨hsaved.exists_openAll_iff, fun e he => ?_⟩
  obtain ⟨-, reopened, hopen⟩ | ⟨s, hs, hdeep, hopen⟩ := hsaved.openAll
  · rw [hopen] at he
    cases he
  · rw [hopen] at he
    exact ⟨s, hs, hdeep, (Except.error.inj he).symm⟩

end

section

theorem run_single {geo geo' rdap rdap' : RemoteSource} {key : String} {w w' w'' : World} {d e : Json}
    (hgeo : geo.document key w = ⟨.ok d, geo', w'⟩)
    (hrdap : rdap.document key w' = ⟨.ok e, rdap', w''⟩) :
    (run [geo, rdap] [key] none w).source = [geo', rdap'] ∧
      (run [geo, rdap] [key] none w).world = w'' := by
  have hfetchgeo : FieldSource.fetch geo key w = ⟨.ok (Record.ofDocument d), geo', w'⟩ := by
    show RemoteSource.fetch geo key w = _
    rw [RemoteSource.fetch, hgeo]
    rfl
  have hfetchrdap : FieldSource.fetch rdap key w' = ⟨.ok (Record.ofDocument e), rdap', w''⟩ := by
    show RemoteSource.fetch rdap key w' = _
    rw [RemoteSource.fetch, hrdap]
    rfl
  have hnew : (∅ : Dataset).contains key = false := rfl
  unfold run lookup lookupInto fetchAll fetchInto fetchInto fetchInto lookupInto
  simp only [hnew, hfetchgeo, hfetchrdap, Bool.false_eq_true, if_false, and_self]

def answering (v : Json) : Http.Network where
  exchange _ r := ⟨[r], some ⟨200, v.compact.toUTF8⟩⟩

def countryNetwork (country : String) (status : Nat) : Http.Network where
  exchange _ r := ⟨[r], some (if r.contentType = none then ⟨status, .empty⟩
    else ⟨200, (Json.object [("country", .string country)]).compact.toUTF8⟩)⟩

def answered (s : RemoteSource) (key : String) (v : Json) (w : World) : RemoteSource :=
  { s with cache := s.cache.set key v (w.tick.send (s.request key)).now }

def afterAnswer (s : RemoteSource) (key : String) (w : World) : World :=
  (w.tick.send (s.request key)).tick

theorem document_of_answering {s : RemoteSource} {key : String} {w : World} {v : Json}
    (hanswer : s.service.readResponse key (some ⟨200, v.compact.toUTF8⟩) = .ok v)
    (hmiss : s.cache.get? key w.now = none) (hnetwork : w.network = answering v) :
    s.document key w = ⟨.ok v, answered s key v w, afterAnswer s key w⟩ := by
  have hresponse : (w.tick.exchange (s.request key)).response = some ⟨200, v.compact.toUTF8⟩ := by
    show (w.network.exchange w.sent (s.request key)).response = _
    rw [hnetwork]
    rfl
  unfold document
  rw [hmiss]
  simp only [ask, hresponse, hanswer]
  rfl

def nestedArrays : Nat → Json
  | 0 => .array []
  | n + 1 => .array [nestedArrays n]

theorem regular_nestedArrays (kind : JsonNumber → Prop) (n : Nat) :
    Json.Regular kind (nestedArrays n) := by
  induction n with
  | zero => exact .array fun v hv => absurd hv List.not_mem_nil
  | succ n ih =>
    refine .array fun v hv => ?_
    rwa [List.mem_singleton.1 hv]

theorem nesting_nestedArrays (n : Nat) : (nestedArrays n).nesting = n + 1 := by
  induction n with
  | zero => rfl
  | succ n ih =>
    show max (nestedArrays n).nesting 0 + 1 = n + 1 + 1
    rw [ih]
    rfl

def nestedStart (n : Nat) : World :=
  .initial ⟨[], .top⟩ (answering (nestedArrays n)) (.still ⟨0, 0, by decide, by decide⟩)

theorem fresh_nestedStart (n : Nat) : Fresh .standard (nestedStart n).files := by
  intro service
  cases service <;> rfl

def nestedSources (n : Nat) : List RemoteSource :=
  [answered (blank .standard .geo) "1.1.1.1" (nestedArrays n) (nestedStart n),
    answered (blank .standard .rdap) "1.1.1.1" (nestedArrays n)
      (afterAnswer (blank .standard .geo) "1.1.1.1" (nestedStart n))]

def nestedWorld (n : Nat) : World :=
  afterAnswer (blank .standard .rdap) "1.1.1.1"
    (afterAnswer (blank .standard .geo) "1.1.1.1" (nestedStart n))

theorem reached_nestedSources {n : Nat} (hn : n < Json.depthLimit) :
    Reached .standard (nestedStart n) (nestedSources n) (nestedWorld n) := by
  have hanswer : ∀ s : Service,
      s.readResponse "1.1.1.1" (some ⟨200, (nestedArrays n).compact.toUTF8⟩) =
        .ok (nestedArrays n) := by
    intro s
    rw [Service.readResponse_compact (by decide) (regular_nestedArrays _ n)
      (by rw [nesting_nestedArrays]; exact hn), (regular_nestedArrays _ n).reread_eq]
  have hgeo := document_of_answering (s := blank .standard .geo) (w := nestedStart n)
    (hanswer .geo) rfl rfl
  have hrdap := document_of_answering (s := blank .standard .rdap)
    (w := afterAnswer (blank .standard .geo) "1.1.1.1" (nestedStart n)) (hanswer .rdap) rfl rfl
  obtain ⟨hsource, hworld⟩ := run_single hgeo hrdap
  have hreached :=
    (Reached.opened (openAll_of_fresh (fresh_nestedStart n))).run ["1.1.1.1"] none
  rwa [hsource, hworld] at hreached

theorem openAll_saveAll_of_shallow_answer :
    (saveAll (nestedSources 124) (nestedWorld 124)).outcome = .ok () ∧
      ∃ reopened, openAll .standard
        (saveAll (nestedSources 124) (nestedWorld 124)).world.files = .ok reopened := by
  have hsave : (saveAll (nestedSources 124) (nestedWorld 124)).outcome = .ok () := by decide +kernel
  refine ⟨hsave, ?_⟩
  rw [(openAll_saveAll (fresh_nestedStart 124) (reached_nestedSources (by decide)) hsave).1]
  decide +kernel

theorem not_openAll_saveAll_of_deep_answer :
    Fresh .standard (nestedStart 125).files ∧
      Reached .standard (nestedStart 125) (nestedSources 125) (nestedWorld 125) ∧
      (saveAll (nestedSources 125) (nestedWorld 125)).outcome = .ok () ∧
      ¬ ∃ reopened, openAll .standard
        (saveAll (nestedSources 125) (nestedWorld 125)).world.files = .ok reopened := by
  have hreached : Reached .standard (nestedStart 125) (nestedSources 125) (nestedWorld 125) :=
    reached_nestedSources (by decide)
  have hsave : (saveAll (nestedSources 125) (nestedWorld 125)).outcome = .ok () := by decide +kernel
  refine ⟨fresh_nestedStart 125, hreached, hsave, ?_⟩
  rw [(saved_saveAll (hreached.kept (fresh_nestedStart 125)) hsave).exists_openAll_iff]
  decide +kernel

end

end RemoteSource

end AddressLookup
