import AddressLookup.Proofs.CommandLine.Lookups

/-! Where a run can end. It explains its query, or it is refused before it has done anything, or it comes to
its lookups and ends as they do, whatever becomes of the caches that are saved after them. -/

namespace AddressLookup

namespace RemoteSource

theorem exists_openService_of_openAll_error {config : Config} {fs : Files} {e : Error}
    (h : openAll config fs = .error e) : ∃ service, openService service config (some agent) fs = .error e := by
  unfold openAll at h
  split at h
  · next hgeo =>
    cases h
    exact ⟨.geo, hgeo⟩
  · split at h
    · next hrdap =>
      cases h
      exact ⟨.rdap, hrdap⟩
    · cases h

theorem exists_openService_of_openAll_ok {config : Config} {fs : Files} {opened : List RemoteSource}
    (h : openAll config fs = .ok opened) (service : Service) :
    ∃ source, openService service config (some agent) fs = .ok source := by
  unfold openAll at h
  split at h
  · cases h
  · next geo hgeo =>
    split at h
    · cases h
    · next rdap hrdap =>
      cases service with
      | geo => exact ⟨geo, hgeo⟩
      | rdap => exact ⟨rdap, hrdap⟩

end RemoteSource

namespace CommandLine

inductive Refused (c : CommandLine) (w : World) : Failure → Prop
  | missingInput (hfile : c.file = none) (htext : c.text = none) : Refused c w .noInput
  | unreadableInput {path : Path} {e : FileError} (hfile : c.file = some path)
      (hread : w.files.readText path = .error e) : Refused c w (.unreadable path e)
  | badSettings {e : Error} (hsettings : c.settings w = .error e) : Refused c w (.failed e)
  | badCache {config : Config} {service : Service} {e : Error} (hsettings : c.settings w = .ok config)
      (hopen : RemoteSource.openService service config (some RemoteSource.agent) w.files = .error e) :
      Refused c w (.failed e)

inductive Ended (c : CommandLine) (color : Bool) (w : World) : Run → Prop
  | unasked (hexplain : c.explain = true) (hquery : c.query = none) : Ended c color w (.fail .noQuery w)
  | misread {text : String} {e : Query.ParseError} (hexplain : c.explain = true) (hquery : c.query = some text)
      (hparse : Query.parse text = .error e) : Ended c color w (.fail (.failed (.query e)) w)
  | explained {text : String} {q : Query} (hexplain : c.explain = true) (hquery : c.query = some text)
      (hparse : Query.parse text = .ok q) : Ended c color w (.report (Report.ofQuery c.format color q) w)
  | refused {e : Failure} (hexplain : c.explain = false) (h : c.Refused w e) : Ended c color w (.fail e w)
  | looked {text : String} {config : Config} {opened : List RemoteSource}
      {ran : Effect Dataset (List RemoteSource) World} (h : c.Ready w text config opened)
      (hran : ran = FieldSource.run opened (Address.extract text) c.query w) :
      Ended c color w (c.conclude color (FieldSource.saveAll ran.source ran.world).world ran.outcome)

section

variable {c : CommandLine} {w : World} {e : Failure}

theorem refused_of_addresses_error (h : c.addresses w.files = .error e) : c.Refused w e := by
  unfold addresses at h
  split at h
  · next path _ hfile =>
    split at h
    · next cause hread =>
      cases h
      exact .unreadableInput hfile hread
    · cases h
  · cases h
  · next hfile htext =>
    cases h
    exact .missingInput hfile htext

theorem refused_of_sources_error {cause : Error} (h : c.sources w = .error cause) :
    c.Refused w (.failed cause) := by
  unfold sources at h
  split at h
  · next hsettings =>
    cases h
    exact .badSettings hsettings
  · next hsettings =>
    obtain ⟨service, hopen⟩ := RemoteSource.exists_openService_of_openAll_error h
    exact .badCache hsettings hopen

theorem exists_input_of_addresses_ok {keys : List String} (h : c.addresses w.files = .ok keys) :
    ∃ text, keys = Address.extract text ∧ match c.file with
      | some path => w.files.readText path = .ok text
      | none => c.text = some text := by
  unfold addresses at h
  split at h
  · next path _ hfile =>
    split at h
    · cases h
    · next text hread =>
      cases h
      exact ⟨text, rfl, by rw [hfile]; exact hread⟩
  · next text hfile htext =>
    cases h
    exact ⟨text, rfl, by rw [hfile]; exact htext⟩
  · cases h

theorem exists_settings_of_sources_ok {opened : List RemoteSource} (h : c.sources w = .ok opened) :
    ∃ config, c.settings w = .ok config ∧ RemoteSource.openAll config w.files = .ok opened := by
  unfold sources at h
  split at h
  · cases h
  · next config hsettings => exact ⟨config, hsettings, h⟩

theorem ended_run (c : CommandLine) (color : Bool) (w : World) : c.Ended color w (c.run color w) := by
  rw [run]
  split
  · next hexplain =>
    rw [runExplain]
    split
    · next hquery => exact .unasked hexplain hquery
    · next text hquery =>
      split
      · next hparse => exact .misread hexplain hquery hparse
      · next hparse => exact .explained hexplain hquery hparse
  · next hexplain =>
    rw [runLookup]
    split
    · next haddresses =>
      exact .refused (Bool.eq_false_of_not_eq_true hexplain) (refused_of_addresses_error haddresses)
    · next haddresses =>
      split
      · next hsources =>
        exact .refused (Bool.eq_false_of_not_eq_true hexplain) (refused_of_sources_error hsources)
      · next hsources =>
        obtain ⟨text, rfl, hinput⟩ := exists_input_of_addresses_ok haddresses
        obtain ⟨config, hsettings, hopen⟩ := exists_settings_of_sources_ok hsources
        exact .looked ⟨Bool.eq_false_of_not_eq_true hexplain, hinput, hsettings, hopen⟩ rfl

theorem outcome_conclude_eq_error_iff {color : Bool} {outcome : Except Error Dataset} :
    (c.conclude color w outcome).outcome = .error e ↔ ∃ cause, outcome = .error cause ∧ e = .failed cause := by
  cases outcome with
  | error cause =>
    simp only [conclude, Run.fail, Except.error.injEq, exists_eq_left']
    exact eq_comm
  | ok found => simp [conclude, Run.report]

theorem Ready.not_refused {text : String} {config : Config} {opened : List RemoteSource}
    (h : c.Ready w text config opened) : ¬ c.Refused w e := by
  have hinput := h.input
  rintro (⟨hfile, htext⟩ | ⟨hfile, hread⟩ | hsettings | ⟨hsettings, hopen⟩)
  · simp [hfile, htext] at hinput
  · simp [hfile, hread] at hinput
  · rw [h.settings_eq] at hsettings
    cases hsettings
  · rw [h.settings_eq] at hsettings
    cases hsettings
    obtain ⟨source, hsource⟩ := RemoteSource.exists_openService_of_openAll_ok h.openAll_eq _
    rw [hsource] at hopen
    cases hopen

end

end CommandLine

end AddressLookup
