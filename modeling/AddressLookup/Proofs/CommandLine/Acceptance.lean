import AddressLookup.CommandLine.Arguments
import AddressLookup.Proofs.CommandLine.Exits

/-! What reading the arguments promises of a command line. Every query is checked when it is taken up, and the
rest when nothing is left to take up, so a run of what was accepted never falls back on its own checks. -/

namespace AddressLookup

theorem Config.load_ne_query (fs : Files) (path : Path) (e : Query.ParseError) :
    Config.load fs path ≠ .error (.query e) := by
  unfold load
  split
  · simp
  · split <;> simp

theorem Config.resolve_ne_query (fs : Files) (path : Option Path) (e : Query.ParseError) :
    Config.resolve fs path ≠ .error (.query e) := by
  unfold resolve
  split
  · exact load_ne_query fs _ e
  · split
    · simp
    · exact load_ne_query fs _ e
    · simp

theorem Cache.openFile_ne_query (fs : Files) (path : Path) (lifetime : Option Lifetime)
    (e : Query.ParseError) : Cache.openFile fs path lifetime ≠ .error (.query e) := by
  unfold openFile
  split
  · simp
  · simp
  · split <;> simp

theorem Service.readResponse_ne_query (service : Service) (key : String) (answer : Option Http.Response)
    (e : Query.ParseError) : service.readResponse key answer ≠ .error (.query e) := by
  unfold readResponse
  split
  · simp
  · split
    · simp
    · split
      · unfold documentOfBody
        split <;> simp
      · simp

namespace RemoteSource

theorem openService_ne_query (service : Service) (config : Config) (userAgent : Option String) (fs : Files)
    (e : Query.ParseError) : openService service config userAgent fs ≠ .error (.query e) := by
  unfold openService
  split
  · next cause hopen =>
    rintro ⟨⟩
    exact Cache.openFile_ne_query _ _ _ e hopen
  · simp

theorem run_ne_query {query : Option String} (hquery : ∀ text ∈ query, ∃ q, Query.parse text = .ok q)
    (sources : List RemoteSource) (keys : List String) (w : World) (e : Query.ParseError) :
    (FieldSource.run sources keys query w).outcome ≠ .error (.query e) := by
  intro h
  obtain ⟨v, -, hfailed⟩ := FieldSource.exists_failed_of_run_error hquery h
  exact Service.readResponse_ne_query _ _ _ e (Visit.readResponse_of_failed hfailed)

end RemoteSource

namespace CommandLine

def QueryParses (c : CommandLine) : Prop :=
  ∀ query ∈ c.query, ∃ q, Query.parse query = .ok q

structure Accepted (c : CommandLine) : Prop where
  one_input : c.file = none ∨ c.text = none
  input : c.explain = false → c.file.isSome = true ∨ c.text.isSome = true
  query_of_explain : c.explain = true → c.query.isSome = true
  queryParses : c.QueryParses

def Progress.QueryParses : Progress → Prop
  | .continue d => d.line.QueryParses
  | .stop i => ∀ c, i ≠ .run c

section

variable {c c' : CommandLine} {d : Draft} {p : Progress} {s : Setting} {value : List UInt8}

theorem exists_parse_of_readQuery {query : String} (h : readQuery value = .ok query) :
    ∃ q, Query.parse query = .ok q := by
  unfold readQuery at h
  split at h
  · cases h
  · split at h
    · cases h
    · next q hparse =>
      obtain rfl := Except.ok.inj h
      exact ⟨q, hparse⟩

theorem QueryParses.withValue (h : c.QueryParses) (hvalue : c.withValue value s = .ok c') : c'.QueryParses := by
  cases s with
  | query =>
    obtain ⟨query, hread, rfl⟩ := map_eq_ok_iff.1 hvalue
    rintro _ ⟨⟩
    exact exists_parse_of_readQuery hread
  | file =>
    obtain ⟨path, -, rfl⟩ := map_eq_ok_iff.1 hvalue
    exact h
  | text =>
    obtain ⟨text, -, rfl⟩ := map_eq_ok_iff.1 hvalue
    exact h
  | config =>
    obtain ⟨path, -, rfl⟩ := map_eq_ok_iff.1 hvalue
    exact h

theorem QueryParses.store (h : c.QueryParses) (hstore : c.store s value = .ok c') : c'.QueryParses := by
  unfold CommandLine.store at hstore
  split at hstore
  · cases hstore
  · exact h.withValue hstore

theorem QueryParses.settle (h : d.line.QueryParses) (hsettle : d.settle = .ok c) : c.QueryParses := by
  unfold Draft.settle at hsettle
  split at hsettle
  · obtain rfl := Except.ok.inj hsettle
    exact h
  · cases hsettle
  · exact h.store hsettle

theorem QueryParses.raise (h : c.QueryParses) {f : Flag} (hraise : c.raise f = .ok p) : p.QueryParses := by
  unfold CommandLine.raise at hraise
  split at hraise
  · split at hraise
    · cases hraise
    · obtain rfl := Except.ok.inj hraise
      exact h
  · split at hraise
    · cases hraise
    · obtain rfl := Except.ok.inj hraise
      exact h
  · obtain rfl := Except.ok.inj hraise
    rintro _ ⟨⟩
  · obtain rfl := Except.ok.inj hraise
    rintro _ ⟨⟩

theorem QueryParses.option (h : d.line.QueryParses) {k : Key} {attached : Option (List UInt8)}
    (hoption : d.option k attached = .ok p) : p.QueryParses := by
  unfold Draft.option at hoption
  split at hoption
  · obtain ⟨c, hsettle, rfl⟩ := map_eq_ok_iff.1 hoption
    exact h.settle hsettle
  · obtain ⟨c, hsettle, hoption⟩ := bind_eq_ok_iff.1 hoption
    obtain ⟨c', hstore, hoption⟩ := bind_eq_ok_iff.1 hoption
    obtain rfl := Except.ok.inj hoption
    exact (h.settle hsettle).store hstore
  · obtain ⟨c, hsettle, hraise⟩ := bind_eq_ok_iff.1 hoption
    exact (h.settle hsettle).raise hraise

theorem QueryParses.take (h : d.line.QueryParses) {argument : List UInt8} {word : Word}
    (htake : d.take argument word = .ok p) : p.QueryParses := by
  unfold Draft.take at htake
  split at htake
  · obtain rfl := Except.ok.inj htake
    exact h
  · split at htake
    · cases htake
    · cases htake
    · exact h.option htake
  · split at htake
    · cases htake
    · exact h.option htake
  · split at htake
    · obtain rfl := Except.ok.inj htake
      exact h
    · cases htake

theorem QueryParses.complete (h : c.QueryParses) (hcomplete : c.complete = .ok (.run c')) : c'.Accepted := by
  unfold CommandLine.complete at hcomplete
  split at hcomplete
  · cases hcomplete
  next hinputs =>
  split at hcomplete
  · cases hcomplete
  next hquery =>
  split at hcomplete
  · cases hcomplete
  next hinput =>
  obtain rfl := Invocation.run.inj (Except.ok.inj hcomplete)
  rw [Bool.and_eq_true, Option.isSome_iff_ne_none, Option.isSome_iff_ne_none] at hinputs
  refine ⟨?_, fun hexplain => ?_, fun hexplain => ?_, h⟩
  · rwa [not_and_or, not_not, not_not] at hinputs
  · rw [hexplain] at hinput
    cases hfile : c.file with
    | none => simpa [hfile, Option.isSome_iff_ne_none] using hinput
    | some path => exact .inl rfl
  · rw [hexplain] at hquery
    simpa [Option.isSome_iff_ne_none] using hquery

theorem accepted_of_read {arguments : List (List UInt8)} (h : d.line.QueryParses)
    (hread : d.read arguments = .ok (.run c)) : c.Accepted := by
  induction arguments generalizing d with
  | nil =>
    obtain ⟨c', hsettle, hcomplete⟩ := bind_eq_ok_iff.1 hread
    exact (h.settle hsettle).complete hcomplete
  | cons argument rest ih =>
    unfold Draft.read at hread
    split at hread
    · cases hread
    · split at hread
      · cases hread
      · next i htake =>
        obtain rfl := Except.ok.inj hread
        exact absurd rfl (h.take htake c)
      · next d' htake => exact ih (h.take htake) hread

theorem accepted_of_parse {arguments : List (List UInt8)} (h : parse arguments = .ok (.run c)) : c.Accepted :=
  accepted_of_read (d := ⟨∅, none⟩) (fun _ hquery => by cases hquery) h

theorem settings_ne_query (c : CommandLine) (w : World) (e : Query.ParseError) :
    c.settings w ≠ .error (.query e) := by
  unfold settings
  cases hresolve : Config.resolve w.files c.config with
  | error cause =>
    rintro ⟨⟩
    exact Config.resolve_ne_query _ _ e hresolve
  | ok config => rintro ⟨⟩

theorem Refused.ne_query {w : World} {e : Failure} (h : c.Refused w e) (cause : Query.ParseError) :
    e ≠ .failed (.query cause) := by
  cases h with
  | missingInput => simp
  | unreadableInput => simp
  | badSettings hsettings =>
    rintro ⟨⟩
    exact settings_ne_query c w cause hsettings
  | badCache _ hopen =>
    rintro ⟨⟩
    exact RemoteSource.openService_ne_query _ _ _ _ cause hopen

theorem Accepted.failure_run (h : c.Accepted) {color : Bool} {w : World} {e : Failure}
    (hfailed : (c.run color w).outcome = .error e) :
    e ≠ .noQuery ∧ e ≠ .noInput ∧ ∀ cause, e ≠ .failed (.query cause) := by
  have hended := c.ended_run color w
  generalize c.run color w = ran at hended hfailed
  cases hended with
  | unasked hexplain hquery =>
    have hsome := h.query_of_explain hexplain
    rw [hquery] at hsome
    cases hsome
  | misread _ hquery hparse =>
    obtain ⟨q, hq⟩ := h.queryParses _ hquery
    rw [hparse] at hq
    cases hq
  | explained => cases hfailed
  | refused hexplain hrefused =>
    cases hfailed
    refine ⟨?_, ?_, hrefused.ne_query⟩
    · rintro ⟨⟩
      cases hrefused
    · rintro ⟨⟩
      cases hrefused with
      | missingInput hfile htext =>
        have hinput := h.input hexplain
        rw [hfile, htext] at hinput
        simp at hinput
  | looked _ hran =>
    obtain ⟨cause, houtcome, rfl⟩ := outcome_conclude_eq_error_iff.1 hfailed
    rw [hran] at houtcome
    refine ⟨by simp, by simp, fun bad => ?_⟩
    rintro ⟨⟩
    exact RemoteSource.run_ne_query h.queryParses _ _ _ bad houtcome

/-- Whatever the arguments and however they are written, a command line that they are accepted as names one
origin of addresses, or none if it only explains a query; to explain, it has a query; and a query that it has
is well formed. So a run of it, in any world, never fails for want of a query or of an origin or because of
the query. -/
theorem parse_accepts {arguments : List (List UInt8)} (h : parse arguments = .ok (.run c)) :
    ((c.file = none ∨ c.text = none) ∧
      (c.explain = false → c.file.isSome = true ∨ c.text.isSome = true) ∧
      (c.explain = true → c.query.isSome = true) ∧
      ∀ query ∈ c.query, ∃ q, Query.parse query = .ok q) ∧
    ∀ color w, (c.run color w).outcome ≠ .error .noQuery ∧ (c.run color w).outcome ≠ .error .noInput ∧
      ∀ cause, (c.run color w).outcome ≠ .error (.failed (.query cause)) := by
  have haccepted := accepted_of_parse h
  refine ⟨⟨haccepted.one_input, haccepted.input, haccepted.query_of_explain, haccepted.queryParses⟩,
    fun color w => ⟨fun hfailed => ?_, fun hfailed => ?_, fun cause hfailed => ?_⟩⟩
  · exact (haccepted.failure_run hfailed).1 rfl
  · exact (haccepted.failure_run hfailed).2.1 rfl
  · exact (haccepted.failure_run hfailed).2.2 cause rfl

/-- Values in the same argument are taken as they are, also one that looks like an option and a path that is no
text. -/
theorem parse_accepts_attached_values :
    let written : List String := ["iplens", "-t--file", "--query=GET * WHERE city = --explain", "--json"]
    let arguments := written.map (fun argument => argument.toUTF8.data.toList) ++ [[0x2D, 0x63, 0xFF], [0x2D, 0x2D]]
    let c : CommandLine :=
      ⟨none, some "--file", some "GET * WHERE city = --explain", false, true, some ⟨[0xFF]⟩⟩
    parse arguments = .ok (.run c) ∧ (∃ query ∈ c.query, ∃ q, Query.parse query = .ok q) ∧
      (c.run false heldStart).outcome ≠ .error .noInput := by
  intro written arguments c
  have hparse : parse arguments = .ok (.run c) := by decide +kernel
  obtain ⟨⟨-, -, -, hquery⟩, hrun⟩ := parse_accepts hparse
  exact ⟨hparse, ⟨_, rfl, hquery _ rfl⟩, (hrun false heldStart).2.1⟩

example : parse [[], [0x2D, 0x66, 0xFF]] = .ok (.run { empty with file := some ⟨[0xFF]⟩ }) := by decide +kernel

example : parse [[], [0x2D, 0x74, 0xFF]] = .error .notText := by decide +kernel

end

end CommandLine

end AddressLookup
