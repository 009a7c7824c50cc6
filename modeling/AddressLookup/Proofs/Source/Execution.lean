import AddressLookup.Proofs.Source.Order
import AddressLookup.Source.Journal
import AddressLookup.Source.Table

/-! Runs as lookups whose dataset a query is then executed on. A run reads its query first, the other way round
reads it last; the two differ only if the query is malformed, when nothing at all is done to the sources. -/

namespace AddressLookup

variable {σ ω : Type} [FieldSource σ ω]

def Visit.call (v : Visit σ ω) : Call :=
  .fetch (FieldSource.name v.source) v.key v.fetched.outcome

namespace FieldSource

def executed (query : Option String) (d : Dataset) : Except Error Dataset :=
  match query with
  | none => .ok d
  | some text => (Query.execute text d).mapError .query

/-- Looks keys up in any case, and reads the query when there is a dataset to execute it on. -/
def lookupThenExecute (sources : List σ) (keys : List String) (query : Option String) (w : ω) :
    Effect Dataset (List σ) ω :=
  let found := lookup sources keys w
  { found with outcome := found.outcome.bind (executed query) }

def journal (w : Watch σ ω) : Journal ω :=
  ⟨w.world, w.visits.map Visit.call⟩

section

variable {query : Option String} {text : String} {e : Query.ParseError} {d : Dataset}

theorem executed_of_malformed (h : Query.parse text = .error e) (d : Dataset) :
    executed (some text) d = .error (.query e) := by
  simp only [executed, Query.execute, h]
  rfl

theorem executed_of_parse {q : Query} (h : Query.parse text = .ok q) (d : Dataset) :
    executed (some text) d = .ok (q.apply d) := by
  simp only [executed, Query.execute, h]
  rfl

theorem journal_concat (w : ω) (visits : List (Visit σ ω)) (v : Visit σ ω) :
    journal ⟨w, visits ++ [v]⟩ = ⟨w, visits.map Visit.call ++ [v.call]⟩ := by
  rw [journal, List.map_append]
  rfl

theorem imitated_journaled : Imitated (fun s : Watched σ => Journaled.mk s.source) (journal (ω := ω)) := by
  intro s key w
  let visit : Visit σ ω := ⟨s.source, key, w.world⟩
  show _ = (⟨visit.fetched.outcome, ⟨visit.fetched.source⟩, journal ⟨visit.fetched.world, w.visits ++ [visit]⟩⟩ :
    Effect Record (Journaled σ) (Journal ω))
  rw [journal_concat]
  rfl

theorem run_journaled (sources : List σ) (keys : List String) (query : Option String) (w : ω) :
    run (sources.map Journaled.mk) keys query ⟨w, []⟩ =
      (run (sources.map Watched.mk) keys query ⟨w, []⟩).map (List.map fun s => ⟨s.source⟩) journal := by
  have hrun := run_map imitated_journaled (sources.map Watched.mk) keys query ⟨w, []⟩
  rw [List.map_map] at hrun
  exact hrun

theorem run_of_readable (h : ∀ text ∈ query, ∃ q, Query.parse text = .ok q) (sources : List σ)
    (keys : List String) (w : ω) : run sources keys query w = lookupThenExecute sources keys query w := by
  rcases query with _ | text
  · show lookup sources keys w = _
    rw [lookupThenExecute]
    rcases lookup sources keys w with ⟨_ | d, kept, after⟩ <;> rfl
  · obtain ⟨q, hq⟩ := h text rfl
    have hexecuted : executed (some text) = fun d => .ok (q.apply d) := by
      funext d
      exact executed_of_parse hq d
    rw [run_of_parse hq, lookupThenExecute, hexecuted]
    cases (lookup sources keys w).outcome <;> rfl

theorem outcome_run_of_found {sources : List σ} {keys : List String} {w : ω}
    (h : (lookup sources keys w).outcome = .ok d) (query : Option String) :
    (run sources keys query w).outcome = executed query d := by
  rcases query with _ | text
  · exact h
  rcases hparse : Query.parse text with e | q
  · rw [run_of_malformed hparse, executed_of_malformed hparse]
  · rw [run_of_parse hparse, executed_of_parse hparse, h]
    rfl

theorem visitsOf_of_readable (h : ∀ text ∈ query, ∃ q, Query.parse text = .ok q) (before : List (Visit σ ω))
    (sources : List σ) (keys : List String) (w : ω) :
    visitsOf before sources keys query w = visitsOf before sources keys none w := by
  rcases query with _ | text
  · rfl
  · obtain ⟨q, hq⟩ := h text rfl
    exact visitsOf_of_parse hq before sources keys w

end

/-- A run with a malformed query comes to its parse error, without a call to any source and with every source as
it was. Any other run makes the calls of a lookup of the same keys, in the same order to the same sources in the
same states, leaves the sources as the lookup does, and comes to the lookup's error or to the dataset that the
query makes of the one found. Where the lookup finds a dataset, it never matters when the query is read. -/
theorem run_eq_lookupThenExecute (sources : List σ) (keys : List String) (query : Option String) (w : ω) :
    let journaled := (placed sources).map Journaled.mk
    let ran := run journaled keys query ⟨w, []⟩
    let visits := visitsOf [] (placed sources) keys query w
    ran.map (List.map fun s => s.source.source) Journal.world = run sources keys query w ∧
      ran.world.calls = visits.map Visit.call ∧
      (∀ text e, query = some text → Query.parse text = .error e →
        ran = ⟨.error (.query e), journaled, ⟨w, []⟩⟩) ∧
      ((∀ text ∈ query, ∃ q, Query.parse text = .ok q) →
        ran = lookupThenExecute journaled keys query ⟨w, []⟩ ∧
          visits = visitsOf [] (placed sources) keys none w) ∧
      ∀ d, (lookup journaled keys ⟨w, []⟩).outcome = .ok d → ran.outcome = executed query d := by
  intro journaled ran visits
  have hran := run_journaled (placed sources) keys query w
  have hplaced := run_placed sources keys query w
  have hwatched := run_watched (placed sources) keys query ⟨w, []⟩
  refine ⟨?_, ?_, ?_, fun hquery => ?_, fun d hfound => ?_⟩
  · rw [← hplaced, ← hwatched, show ran = _ from hran]
    simp only [Effect.map, List.map_map, id]
    rfl
  · rw [show ran = _ from hran]
    rfl
  · rintro text e rfl hparse
    exact run_of_malformed hparse journaled keys ⟨w, []⟩
  · exact ⟨run_of_readable hquery journaled keys ⟨w, []⟩, visitsOf_of_readable hquery [] (placed sources) keys w⟩
  · exact outcome_run_of_found hfound query

/-- Two sources of one name, the second of which refuses a key. With a query that lacks its operator the refusal
is never met, though it would be if the query were read last; with a good query it is, after a call to each. -/
theorem run_eq_lookupThenExecute_refused :
    let sources : List TableSource :=
      [⟨"geo", ∅, ∅, none⟩, ⟨"geo", ∅, KeyMap.ofList [("1.1.1.1", "busy")], none⟩]
    let journaled := (placed sources).map Journaled.mk
    let ran query := run journaled ["1.1.1.1"] (some query) ⟨(), []⟩
    let refusal := Error.lookup "geo" "1.1.1.1" "busy"
    Query.parse "GET * WHERE city" = .error (.noOperator "city") ∧
      (lookupThenExecute journaled ["1.1.1.1"] (some "GET * WHERE city") ⟨(), []⟩).outcome = .error refusal ∧
      ran "GET * WHERE city" = ⟨.error (.query (.noOperator "city")), journaled, ⟨(), []⟩⟩ ∧
      Query.parse "GET *" = .ok ⟨.all, []⟩ ∧
      ran "GET *" = lookupThenExecute journaled ["1.1.1.1"] (some "GET *") ⟨(), []⟩ ∧
      (ran "GET *").outcome = .error refusal := by
  intro sources journaled ran refusal
  have hmalformed : Query.parse "GET * WHERE city" = .error (.noOperator "city") := by decide +kernel
  have hgood : Query.parse "GET *" = .ok ⟨.all, []⟩ := by decide +kernel
  obtain ⟨-, -, hrejected, -⟩ := run_eq_lookupThenExecute sources ["1.1.1.1"] (some "GET * WHERE city") ()
  obtain ⟨-, -, -, hran, -⟩ := run_eq_lookupThenExecute sources ["1.1.1.1"] (some "GET *") ()
  have hsame := (hran fun text htext => ⟨_, Option.some.inj htext ▸ hgood⟩).1
  exact ⟨hmalformed, by decide +kernel, hrejected _ _ rfl hmalformed, hgood, hsame, by decide +kernel⟩

end FieldSource

end AddressLookup
