import AddressLookup.Proofs.CommandLine.Exits

/-! What a run has done by the time it ends. Up to the opening of the caches it has done nothing; its output
comes last, only if it succeeds, and does not depend on whether the caches could be saved. -/

namespace AddressLookup

open FieldSource

theorem RemoteSource.received_saveAll (sources : List RemoteSource) (w : World) :
    (saveAll sources w).world.received = w.received := by
  induction sources generalizing w with
  | nil => rfl
  | cons s rest ih => exact ih (FieldSource.save s w).world

theorem RemoteSource.imitated_files (fs : Files) :
    Imitated (id : RemoteSource → RemoteSource) fun w : World => { w with files := fs } := by
  intro s key w
  show RemoteSource.fetch s key _ = (RemoteSource.fetch s key w).map _ _
  simp only [RemoteSource.fetch, RemoteSource.document, World.now, World.tick, Effect.map]
  cases s.cache.get? key w.clock.now with
  | some document => rfl
  | none =>
    simp only [RemoteSource.ask, World.exchange]
    cases s.service.readResponse key (w.network.exchange w.sent (s.request key)).response <;> rfl

theorem RemoteSource.outcome_run_files (sources : List RemoteSource) (keys : List String)
    (query : Option String) (w : World) (fs : Files) :
    (FieldSource.run sources keys query { w with files := fs }).outcome =
      (FieldSource.run sources keys query w).outcome := by
  have hrun := run_map (imitated_files fs) sources keys query w
  rw [List.map_id] at hrun
  rw [hrun]
  rfl

theorem RemoteSource.openAll_congr {config : Config} {fs fs' : Files}
    (h : ∀ service : Service, fs.readText (config.cacheFile service.cacheFileName) =
      fs'.readText (config.cacheFile service.cacheFileName)) :
    RemoteSource.openAll config fs = RemoteSource.openAll config fs' := by
  simp only [RemoteSource.openAll, RemoteSource.openService, Cache.openFile, h]

namespace CommandLine

section

variable {c : CommandLine} {w : World}

theorem output_of_failed {color : Bool} {e : Failure} (h : (c.run color w).outcome = .error e) :
    (c.run color w).output = "" := by
  have hended := c.ended_run color w
  generalize c.run color w = ran at hended h ⊢
  cases hended with
  | unasked | misread | refused => rfl
  | explained => cases h
  | looked =>
    obtain ⟨cause, houtcome, -⟩ := outcome_conclude_eq_error_iff.1 h
    rw [houtcome]
    rfl

/-- A run that does not come to its lookups leaves everything as it is. -/
theorem world_run_of_not_ready (h : ∀ text config opened, ¬ c.Ready w text config opened) (color : Bool) :
    (c.run color w).world = w := by
  have hended := c.ended_run color w
  generalize c.run color w = ran at hended
  cases hended with
  | unasked | misread | explained | refused => rfl
  | looked hready => exact absurd hready (h _ _ _)

theorem exists_refused_of_refused {color : Bool} {e : Failure} (hexplain : c.explain = false)
    (h : c.Refused w e) : ∃ reason, c.Refused w reason ∧ (c.run color w).outcome = .error reason := by
  have hended := c.ended_run color w
  generalize c.run color w = ran at hended
  cases hended with
  | unasked hexplained | misread hexplained | explained hexplained =>
    rw [hexplain] at hexplained
    cases hexplained
  | refused _ hrefused => exact ⟨_, hrefused, rfl⟩
  | looked hready => exact absurd h hready.not_refused

theorem run_of_malformed {text : String} {e : Query.ParseError} (hquery : c.query = some text)
    (hparse : Query.parse text = .error e) (color : Bool) :
    (c.run color w).world.sent = w.sent ∧ (c.run color w).world.received = w.received ∧
      ∃ failure, (c.run color w).outcome = .error failure := by
  have hended := c.ended_run color w
  generalize c.run color w = ran at hended
  cases hended with
  | unasked | misread | refused => exact ⟨rfl, rfl, _, rfl⟩
  | explained _ hquery' hparse' =>
    obtain rfl := Option.some.inj (hquery.symm.trans hquery')
    rw [hparse] at hparse'
    cases hparse'
  | looked _ hran =>
    rw [hquery, FieldSource.run_of_malformed hparse] at hran
    rw [world_conclude, hran]
    exact ⟨RemoteSource.sent_saveAll _ w, RemoteSource.received_saveAll _ w, _, rfl⟩

section

variable {text : String} {config : Config} {opened : List RemoteSource}

theorem Ready.run_of_ok (h : c.Ready w text config opened) {d : Dataset}
    (hfound : (FieldSource.run opened (Address.extract text) c.query w).outcome = .ok d) (color : Bool) :
    (c.run color w).outcome = .ok () ∧ (c.run color w).output = Report.ofDataset c.format color d := by
  rw [h.run_eq color, hfound]
  exact ⟨rfl, rfl⟩

theorem Ready.run_files (h : c.Ready w text config opened) {fs : Files}
    (h' : c.Ready { w with files := fs } text config opened) (color : Bool) :
    (c.run color { w with files := fs }).outcome = (c.run color w).outcome ∧
      (c.run color { w with files := fs }).output = (c.run color w).output := by
  rw [h.run_eq color, h'.run_eq color, RemoteSource.outcome_run_files]
  cases (FieldSource.run opened (Address.extract text) c.query w).outcome <;> exact ⟨rfl, rfl⟩

theorem Ready.run_of_error (h : c.Ready w text config opened) {e : Error}
    (hfound : (FieldSource.run opened (Address.extract text) c.query w).outcome = .error e) (color : Bool) :
    (c.run color w).outcome = .error (.failed e) := by
  rw [h.run_eq color, hfound]
  rfl

end

/-- A run that fails has no output. A run that explains its query, or that does not come to its lookups,
changes nothing in the world; whatever keeps it from its lookups makes it fail. A bad query makes it fail
without a request. Past that, outcome and output are those of the lookups, so they are the same however the
saves of the caches go. -/
theorem run_effects (c : CommandLine) (color : Bool) (w : World) :
    let ran := c.run color w
    (∀ e, ran.outcome = .error e → ran.output = "") ∧
      (c.explain = true → ran.world = w) ∧
      ((∀ text config opened, ¬ c.Ready w text config opened) → ran.world = w) ∧
      (∀ e, c.Refused w e → ran.world = w ∧
        (c.explain = false → ∃ reason, c.Refused w reason ∧ ran.outcome = .error reason)) ∧
      (∀ text e, c.query = some text → Query.parse text = .error e →
        ran.world.sent = w.sent ∧ ran.world.received = w.received ∧ ∃ reason, ran.outcome = .error reason) ∧
      ∀ text config opened, c.Ready w text config opened →
        let found := (FieldSource.run opened (Address.extract text) c.query w).outcome
        (∀ d, found = .ok d → ran.outcome = .ok () ∧ ran.output = Report.ofDataset c.format color d) ∧
          (∀ e, found = .error e → ran.outcome = .error (.failed e)) ∧
          ∀ files, c.Ready { w with files := files } text config opened →
            let other := c.run color { w with files := files }
            other.outcome = ran.outcome ∧ other.output = ran.output := by
  intro ran
  refine ⟨fun e => output_of_failed, fun hexplain => ?_, fun hready => world_run_of_not_ready hready color,
    fun e hrefused => ⟨?_, fun hexplain => exists_refused_of_refused hexplain hrefused⟩,
    fun text e hquery hparse => run_of_malformed hquery hparse color, fun text config opened hready => ?_⟩
  · refine world_run_of_not_ready (fun _ _ _ hready => ?_) color
    rw [hready.explain_eq] at hexplain
    cases hexplain
  · exact world_run_of_not_ready (fun _ _ _ hready => hready.not_refused hrefused) color
  · refine ⟨fun d hfound => hready.run_of_ok hfound color, fun e hfound => hready.run_of_error hfound color,
      fun files hready' => hready.run_files hready' color⟩

/-- One more item in the directory of the caches, and a registry that knows no address. -/
def startWith (name : Name) (item : Item) : World :=
  { heldStart with
    files := heldFiles.put ((Place.top.into Config.standard.cacheDirectory.bytes).into name) item
    network := RemoteSource.countryNetwork "NO" 404 }

def blockedStart : World :=
  startWith Service.geo.temporaryName .directory

def corruptStart : World :=
  startWith Service.rdap.fileName (.file "[".toUTF8)

theorem ready_blockedStart (text : String) (query : Option String) :
    (ofText text query).Ready blockedStart text .standard heldSources := by
  have hopen : RemoteSource.openAll .standard blockedStart.files = .ok heldSources := by
    rw [← (ready_ofText text query).openAll_eq]
    refine RemoteSource.openAll_congr fun service => ?_
    cases service <;> decide +kernel
  refine ⟨rfl, rfl, ?_, hopen⟩
  show (Config.resolve blockedStart.files none).map (Config.override · none) = .ok .standard
  decide +kernel

theorem refused_corruptStart (text : String) (query : Option String) :
    (ofText text query).Refused corruptStart
      (.failed (.badCache (Config.standard.cacheFile Service.rdap.cacheFileName))) := by
  have hsettings : (ofText text query).settings corruptStart = .ok .standard := by
    show (Config.resolve corruptStart.files none).map (Config.override · none) = .ok .standard
    decide +kernel
  have hread : corruptStart.files.readText (Config.standard.cacheFile Service.rdap.cacheFileName) =
      .ok "[" := by decide +kernel
  have hparse : Cache.parseDocument "[" = none := Option.isNone_iff_eq_none.1 (by decide +kernel)
  have hopen : RemoteSource.openService .rdap .standard (some RemoteSource.agent) corruptStart.files =
      .error (.badCache (Config.standard.cacheFile Service.rdap.cacheFileName)) := by
    simp only [RemoteSource.openService, Cache.openFile, hread, hparse]
  exact .badCache hsettings hopen

/-- A save that is blocked goes unnoticed, a cache that cannot be read does not, nor does a bad query. -/
theorem run_effects_of_bad_files :
    let c := ofText "1.1.1.1" none
    let free : World := { blockedStart with files := heldFiles }
    let ran := FieldSource.run heldSources ["1.1.1.1"] none blockedStart
    (c.Ready blockedStart "1.1.1.1" .standard heldSources ∧ c.Ready free "1.1.1.1" .standard heldSources ∧
      (saveAll ran.source ran.world).outcome = .error (.file .isDirectory) ∧
      (c.run false blockedStart).outcome = .ok () ∧
      (c.run false free).outcome = .ok () ∧ (c.run false free).output = (c.run false blockedStart).output) ∧
    ((∃ e, c.Refused corruptStart e) ∧ (c.run false corruptStart).world = corruptStart ∧
      ∃ reason, c.Refused corruptStart reason ∧ (c.run false corruptStart).outcome = .error reason ∧
        (c.run false corruptStart).output = "") ∧
    ∃ e, Query.parse "GET" = .error e ∧
      ((ofText "1.1.1.1" (some "GET")).run false blockedStart).world.sent = [] := by
  intro c free ran
  have hready : c.Ready blockedStart "1.1.1.1" .standard heldSources := ready_blockedStart _ _
  have hfree : c.Ready free "1.1.1.1" .standard heldSources := by
    have hheld := ready_ofText "1.1.1.1" none
    exact ⟨hheld.explain_eq, hheld.input, hheld.settings_eq, hheld.openAll_eq⟩
  refine ⟨⟨hready, hfree, ?_, ?_⟩, ?_, ?_⟩
  · decide +kernel
  · have hok : (c.run false blockedStart).outcome = .ok () := by decide +kernel
    obtain ⟨-, -, -, -, -, hlooked⟩ := run_effects c false blockedStart
    obtain ⟨houtcome, houtput⟩ := (hlooked _ _ _ hready).2.2 heldFiles hfree
    exact ⟨hok, houtcome.trans hok, houtput⟩
  · have hrefused := refused_corruptStart "1.1.1.1" none
    obtain ⟨houtput, -, -, hkept, -⟩ := run_effects c false corruptStart
    obtain ⟨hworld, hfailed⟩ := hkept _ hrefused
    obtain ⟨reason, hreason, houtcome⟩ := hfailed rfl
    exact ⟨⟨_, hrefused⟩, hworld, reason, hreason, houtcome, houtput reason houtcome⟩
  · obtain ⟨-, -, -, -, hquery, -⟩ := run_effects (ofText "1.1.1.1" (some "GET")) false blockedStart
    have hparse : Query.parse "GET" = .error .missingGet := by decide +kernel
    exact ⟨_, hparse, (hquery "GET" _ rfl hparse).1⟩

end

end CommandLine

end AddressLookup
