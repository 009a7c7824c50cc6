import AddressLookup.Proofs.Source.Visits
import Mathlib.Data.List.Induction
import Mathlib.Data.List.Nodup
import Mathlib.Data.List.ProdSigma

/-! The fetches of a lookup in their order. Every distinct key is fetched from each source in turn, until one
fetch fails; if none does, the record of a key has what the last source to know of a field says of it. -/

namespace AddressLookup

structure Placed (σ : Type) where
  position : Nat
  source : σ

variable {σ ω ι : Type} [FieldSource σ ω]

namespace Placed

def fetch (s : Placed σ) (key : String) (w : ω) : Effect Record (Placed σ) ω :=
  let fetched := FieldSource.fetch s.source key w
  ⟨fetched.outcome, ⟨s.position, fetched.source⟩, fetched.world⟩

def save (s : Placed σ) (w : ω) : Effect Unit (Placed σ) ω :=
  let saved := FieldSource.save s.source w
  ⟨saved.outcome, ⟨s.position, saved.source⟩, saved.world⟩

instance : FieldSource (Placed σ) ω where
  name s := FieldSource.name s.source
  fetch := fetch
  save := save

end Placed

/-- Fetches made as planned, each the next in turn, up to the first that fails, and the error of that one. -/
inductive CarriedOut (label : σ → ι) : List (String × ι) → List (Visit σ ω) → Option Error → Prop
  | finished : CarriedOut label [] [] none
  | failed {v : Visit σ ω} {e : Error} (hfailed : v.fetched.outcome = .error e) (planned : List (String × ι)) :
      CarriedOut label ((v.key, label v.source) :: planned) [v] (some e)
  | fetched {v : Visit σ ω} {r : Record} {planned : List (String × ι)} {visits : List (Visit σ ω)}
      {failure : Option Error} (hfetched : v.fetched.outcome = .ok r)
      (h : CarriedOut label planned visits failure) :
      CarriedOut label ((v.key, label v.source) :: planned) (v :: visits) failure

namespace CarriedOut

variable {label : σ → ι} {planned more : List (String × ι)} {visits rest : List (Visit σ ω)}
  {failure : Option Error} {e : Error}

theorem append (h : CarriedOut label planned visits none) (hrest : CarriedOut label more rest failure) :
    CarriedOut label (planned ++ more) (visits ++ rest) failure := by
  generalize hnone : (none : Option Error) = done at h
  induction h with
  | finished => exact hrest
  | failed => cases hnone
  | fetched hfetched _ ih => exact fetched hfetched (ih hnone)

theorem extend (h : CarriedOut label planned visits (some e)) (more : List (String × ι)) :
    CarriedOut label (planned ++ more) visits (some e) := by
  generalize hsome : some e = failure at h
  induction h with
  | finished => cases hsome
  | failed hfailed planned =>
    obtain rfl := Option.some.inj hsome
    exact failed hfailed (planned ++ more)
  | fetched hfetched _ ih => exact fetched hfetched (ih hsome)

theorem isPrefix (h : CarriedOut label planned visits failure) :
    visits.map (fun v => (v.key, label v.source)) <+: planned := by
  induction h with
  | finished => exact List.prefix_rfl
  | failed _ planned => exact ⟨planned, rfl⟩
  | fetched _ _ ih => exact List.cons_prefix_cons.2 ⟨rfl, ih⟩

theorem mem_planned (h : CarriedOut label planned visits failure) {v : Visit σ ω} (hv : v ∈ visits) :
    (v.key, label v.source) ∈ planned :=
  h.isPrefix.subset (List.mem_map.2 ⟨v, hv, rfl⟩)

theorem exists_failed (h : CarriedOut label planned visits (some e)) :
    ∃ v ∈ visits, v.fetched.outcome = .error e := by
  generalize hsome : some e = failure at h
  induction h with
  | finished => cases hsome
  | failed hfailed =>
    obtain rfl := Option.some.inj hsome
    exact ⟨_, List.mem_singleton_self _, hfailed⟩
  | fetched _ _ ih =>
    obtain ⟨v, hv, hfailed⟩ := ih hsome
    exact ⟨v, List.mem_cons_of_mem _ hv, hfailed⟩

end CarriedOut

def fetchPlan (keys : List String) (labels : List ι) : List (String × ι) :=
  keys.eraseDups ×ˢ labels

def KeyMap.missing {α : Type} (m : KeyMap α) (keys : List String) : List String :=
  keys.filter fun key => !m.contains key

section

variable {d : Dataset} {key : String}

theorem KeyMap.missing_cons_of_contains (h : d.contains key = true) (keys : List String) :
    d.missing (key :: keys) = d.missing keys :=
  List.filter_cons_of_neg (by simp [h])

theorem fetchPlan_missing_cons (h : ¬ d.contains key = true) (r : Record) (keys : List String)
    (labels : List ι) :
    fetchPlan (d.missing (key :: keys)) labels =
      labels.map (fun label => (key, label)) ++ fetchPlan ((d.insert key r).missing keys) labels := by
  have hcontains (other : String) : (d.insert key r).contains other = (other == key || d.contains other) := by
    rw [KeyMap.contains, KeyMap.get?_insert]
    by_cases hother : other = key <;> simp [hother, KeyMap.contains]
  have hmissing : (d.missing keys).filter (fun other => !other == key) = (d.insert key r).missing keys := by
    rw [KeyMap.missing, KeyMap.missing, List.filter_filter]
    simp only [hcontains, Bool.not_or]
  rw [fetchPlan, KeyMap.missing, List.filter_cons_of_pos (by simpa using h), List.eraseDups_cons,
    List.product_cons, ← KeyMap.missing, hmissing]
  rfl

end

/-- What the last of several fetches to know of a field of a key says of it. -/
def lastValue? (key field : String) (visits : List (Visit σ ω)) : Option String :=
  visits.reverse.findSome? fun v =>
    if v.key = key then v.fetched.outcome.toOption.bind fun r => r.get? field else none

section

variable {key field : String} {visits : List (Visit σ ω)}

theorem lastValue?_append (rest : List (Visit σ ω)) :
    lastValue? key field (visits ++ rest) = (lastValue? key field rest).or (lastValue? key field visits) := by
  rw [lastValue?, List.reverse_append, List.findSome?_append]
  rfl

theorem lastValue?_of_ne (h : ∀ v ∈ visits, v.key ≠ key) : lastValue? key field visits = none := by
  refine List.findSome?_eq_none_iff.2 fun v hv => ?_
  exact if_neg (h v (List.mem_reverse.1 hv))

end

theorem mem_fetchPlan {keys : List String} {labels : List ι} {key : String} {label : ι} :
    (key, label) ∈ fetchPlan keys labels ↔ key ∈ keys ∧ label ∈ labels := by
  rw [fetchPlan, List.mem_product, List.mem_eraseDups]

theorem nodup_eraseDups (keys : List String) : keys.eraseDups.Nodup := by
  induction keys using List.reverseRecOn with
  | nil => exact List.nodup_nil
  | append_singleton keys key ih =>
    rw [List.eraseDups_append]
    by_cases hkey : key ∈ keys
    · simpa [List.removeAll, hkey] using ih
    · refine List.nodup_append.2 ⟨ih, by simp [List.removeAll, hkey, List.eraseDups_cons], fun a ha b hb => ?_⟩
      obtain rfl : b = key := by simpa [List.removeAll, hkey, List.eraseDups_cons] using hb
      rintro rfl
      exact hkey (List.mem_eraseDups.1 ha)

theorem nodup_fetchPlan (keys : List String) {labels : List ι} (h : labels.Nodup) :
    (fetchPlan keys labels).Nodup :=
  (nodup_eraseDups keys).product h

def Dataset.Completed (d : Dataset) (keys : List String) (visits : List (Visit σ ω)) (key : String)
    (record : Record) : Prop :=
  d.get? key = some record ∨
    d.get? key = none ∧ key ∈ keys ∧ ∀ field, record.get? field = lastValue? key field visits

section

variable {d : Dataset} {keys : List String} {key other : String} {visits more : List (Visit σ ω)}
  {r record : Record}

theorem completed_cons_of_contains (h : d.contains key = true) :
    d.Completed (key :: keys) visits other record ↔ d.Completed keys visits other record := by
  refine or_congr_right (and_congr_right fun hnone => and_congr_left fun _ => ?_)
  have hne : other ≠ key := by
    rintro rfl
    simp [KeyMap.contains, hnone] at h
  rw [List.mem_cons, or_iff_right hne]

theorem completed_insert (h : d.get? key = none) (hvisits : ∀ v ∈ visits, v.key = key)
    (hmore : ∀ v ∈ more, v.key ≠ key) (hr : ∀ field, r.get? field = lastValue? key field visits) :
    Dataset.Completed (d.insert key r) keys more other record ↔
      d.Completed (key :: keys) (visits ++ more) other record := by
  have hvalue : ∀ field, lastValue? other field (visits ++ more) =
      if other = key then r.get? field else lastValue? other field more := by
    intro field
    rw [lastValue?_append]
    split
    · next heq => rw [heq, lastValue?_of_ne hmore, Option.none_or, hr]
    · next hne =>
      have hnone : lastValue? other field visits = none :=
        lastValue?_of_ne fun v hv => by rw [hvisits v hv]; exact Ne.symm hne
      rw [hnone, Option.or_none]
  simp only [Dataset.Completed, KeyMap.get?_insert, hvalue, List.mem_cons]
  by_cases hother : other = key
  · subst hother
    simp only [if_true, h, reduceCtorEq, false_and, or_false, true_or, true_and, false_or,
      Option.some.injEq]
    constructor
    · rintro rfl field
      rfl
    · exact fun hrecord => KeyMap.ext_get? fun field => (hrecord field).symm
  · simp only [hother, if_false, false_or]

end

namespace FieldSource

theorem fetchInto_carriedOut (label : σ → ι) (r : Record) (sources : List (Watched σ)) (key : String)
    (w : Watch σ ω) :
    ∃ visits, (fetchInto r sources key w).world.visits = w.visits ++ visits ∧
      match (fetchInto r sources key w).outcome with
      | .error e => CarriedOut label (sources.map fun s => (key, label s.source)) visits (some e)
      | .ok found => CarriedOut label (sources.map fun s => (key, label s.source)) visits none ∧
          ∀ field, found.get? field = (lastValue? key field visits).or (r.get? field) := by
  induction sources generalizing r w with
  | nil => exact ⟨[], (List.append_nil _).symm, .finished, fun field => rfl⟩
  | cons s rest ih =>
    let v : Visit σ ω := ⟨s.source, key, w.world⟩
    have hfetched : FieldSource.fetch s key w =
      ⟨v.fetched.outcome, ⟨v.fetched.source⟩, ⟨v.fetched.world, w.visits ++ [v]⟩⟩ := rfl
    rw [fetchInto, hfetched]
    rcases houtcome : v.fetched.outcome with e | fields
    · exact ⟨[v], rfl, .failed houtcome _⟩
    obtain ⟨visits, hvisits, hrest⟩ := ih (r.override fields) ⟨v.fetched.world, w.visits ++ [v]⟩
    refine ⟨v :: visits, by simpa using hvisits, ?_⟩
    simp only []
    revert hrest
    cases (fetchInto (r.override fields) rest key ⟨v.fetched.world, w.visits ++ [v]⟩).outcome with
    | error e => exact fun hrest => .fetched houtcome hrest
    | ok found =>
      rintro ⟨hcarried, hfound⟩
      refine ⟨.fetched houtcome hcarried, fun field => ?_⟩
      have hvalue : lastValue? key field [v] = fields.get? field := by
        simp [lastValue?, v, houtcome, Except.toOption]
      rw [hfound, KeyMap.get?_override, ← List.singleton_append, lastValue?_append, hvalue, Option.or_assoc]

theorem labels_fetchInto {label : σ → ι} (hlabel : ∀ s key (w : ω), label (fetch s key w).source = label s)
    (r : Record) (sources : List (Watched σ)) (key : String) (w : Watch σ ω) :
    (fetchInto r sources key w).source.map (fun s => label s.source) = sources.map fun s => label s.source := by
  let I (kept : List (Watched σ)) (_ : Watch σ ω) : Prop :=
    kept.map (fun s => label s.source) = sources.map fun s => label s.source
  refine fetchInto_preserves (I := I) ?_ (show I ([] ++ sources) w from rfl) r key
  intro before s after w h key
  have hsame : label (fetch s key w).source.source = label s.source := hlabel s.source key w.world
  show List.map _ _ = _
  rw [← h, List.map_append, List.map_append, List.map_cons, List.map_cons, hsame]

theorem lookupInto_carriedOut {label : σ → ι}
    (hlabel : ∀ s key (w : ω), label (fetch s key w).source = label s) (d : Dataset)
    (sources : List (Watched σ)) (keys : List String) (w : Watch σ ω) :
    ∃ visits, (lookupInto d sources keys w).world.visits = w.visits ++ visits ∧
      match (lookupInto d sources keys w).outcome with
      | .error e =>
          CarriedOut label (fetchPlan (d.missing keys) (sources.map fun s => label s.source)) visits (some e)
      | .ok found =>
          CarriedOut label (fetchPlan (d.missing keys) (sources.map fun s => label s.source)) visits none ∧
          ∀ key record, found.get? key = some record ↔ d.Completed keys visits key record := by
  induction keys generalizing d sources w with
  | nil =>
    exact ⟨[], (List.append_nil _).symm, .finished, fun key record => by simp [Dataset.Completed]⟩
  | cons key keys ih =>
    rw [lookupInto]
    split
    · next hknown =>
      rw [KeyMap.missing_cons_of_contains hknown]
      simp only [completed_cons_of_contains hknown]
      exact ih d sources w
    next hnew =>
    obtain ⟨visits, hvisits, hmade⟩ := fetchInto_carriedOut label ∅ sources key w
    simp only [fetchAll]
    split
    · next e houtcome =>
      rw [houtcome] at hmade
      rw [fetchPlan_missing_cons hnew ∅, List.map_map]
      exact ⟨visits, hvisits, hmade.extend _⟩
    next r houtcome =>
    rw [houtcome] at hmade
    obtain ⟨hcarried, hrecord⟩ := hmade
    obtain ⟨more, hmore, hrest⟩ := ih (d.insert key r) (fetchInto ∅ sources key w).source
      (fetchInto ∅ sources key w).world
    refine ⟨visits ++ more, by rw [hmore, hvisits, List.append_assoc], ?_⟩
    rw [fetchPlan_missing_cons hnew r, List.map_map]
    rw [labels_fetchInto hlabel] at hrest
    revert hrest
    cases (lookupInto (d.insert key r) (fetchInto ∅ sources key w).source keys
      (fetchInto ∅ sources key w).world).outcome with
    | error e => exact hcarried.append
    | ok found =>
      rintro ⟨hrest, hfound⟩
      refine ⟨hcarried.append hrest, fun other record => (hfound other record).trans ?_⟩
      refine completed_insert (by simpa [KeyMap.contains] using hnew) (fun v hv => ?_) (fun v hv => ?_) fun field => ?_
      · obtain ⟨s, -, hs⟩ := List.mem_map.1 (hcarried.mem_planned hv)
        exact (congrArg Prod.fst hs).symm
      · -- The keys of what is left of the plan are not in the dataset any more.
        have hmissing := List.mem_filter.1 (mem_fetchPlan.1 (hrest.mem_planned hv)).1
        rintro rfl
        simp [KeyMap.contains, KeyMap.get?_insert] at hmissing
      · rw [hrecord, KeyMap.get?_empty, Option.or_none]

theorem lookup_carriedOut (label : σ → ι)
    (hlabel : ∀ s key (w : ω), label (fetch s key w).source = label s) (sources : List σ)
    (keys : List String) (w : ω) :
    let visits := visitsOf [] sources keys none w
    match (lookup sources keys w).outcome with
    | .error e => CarriedOut label (fetchPlan keys (sources.map label)) visits (some e)
    | .ok found => CarriedOut label (fetchPlan keys (sources.map label)) visits none ∧
        ∀ key record, found.get? key = some record ↔
          key ∈ keys ∧ ∀ field, record.get? field = lastValue? key field visits := by
  intro visits
  obtain ⟨made, hmade, hcarried⟩ := lookupInto_carriedOut hlabel ∅ (sources.map Watched.mk) keys ⟨w, []⟩
  have houtcome := congrArg Effect.outcome (run_watched sources keys none ⟨w, []⟩)
  have hmissing : KeyMap.missing (∅ : Dataset) keys = keys := List.filter_eq_self.2 fun _ _ => rfl
  obtain rfl : made = visits := (hmade.trans (List.nil_append made)).symm
  rw [hmissing, List.map_map] at hcarried
  rw [show (lookup sources keys w).outcome = _ from houtcome.symm]
  simp only [Dataset.Completed, KeyMap.get?_empty, reduceCtorEq, false_or, true_and] at hcarried
  exact hcarried

theorem visitsOf_of_parse {text : String} {q : Query} (h : Query.parse text = .ok q)
    (before : List (Visit σ ω)) (sources : List σ) (keys : List String) (w : ω) :
    visitsOf before sources keys (some text) w = visitsOf before sources keys none w := by
  rw [visitsOf, run_of_parse h]
  rfl

theorem visitsOf_of_malformed {text : String} {e : Query.ParseError} (h : Query.parse text = .error e)
    (before : List (Visit σ ω)) (sources : List σ) (keys : List String) (w : ω) :
    visitsOf before sources keys (some text) w = before := by
  rw [visitsOf, run_of_malformed h]

theorem exists_carriedOut (label : σ → ι)
    (hlabel : ∀ s key (w : ω), label (fetch s key w).source = label s) (sources : List σ)
    (keys : List String) {query : Option String} (hquery : ∀ text ∈ query, ∃ q, Query.parse text = .ok q)
    (w : ω) :
    ∃ failure, CarriedOut label (fetchPlan keys (sources.map label)) (visitsOf [] sources keys query w)
      failure := by
  have hsame : visitsOf [] sources keys query w = visitsOf [] sources keys none w := by
    rcases query with _ | text
    · rfl
    · obtain ⟨q, hq⟩ := hquery text rfl
      exact visitsOf_of_parse hq [] sources keys w
  have hcarried := lookup_carriedOut label hlabel sources keys w
  rw [hsame]
  cases houtcome : (lookup sources keys w).outcome with
  | error e =>
    rw [houtcome] at hcarried
    exact ⟨_, hcarried⟩
  | ok found =>
    rw [houtcome] at hcarried
    exact ⟨_, hcarried.1⟩

theorem exists_failed_of_run_error {sources : List σ} {keys : List String} {query : Option String} {w : ω}
    {e : Error} (hquery : ∀ text ∈ query, ∃ q, Query.parse text = .ok q)
    (h : (run sources keys query w).outcome = .error e) :
    ∃ v ∈ visitsOf [] sources keys none w, v.fetched.outcome = .error e := by
  have hlookup : (lookup sources keys w).outcome = .error e := by
    rcases query with _ | text
    · exact h
    · obtain ⟨q, hq⟩ := hquery text rfl
      rw [run_of_parse hq] at h
      cases houtcome : (lookup sources keys w).outcome with
      | error e' => rwa [houtcome] at h
      | ok found =>
        rw [houtcome] at h
        cases h
  have hcarried := lookup_carriedOut (fun _ => ()) (fun _ _ _ => rfl) sources keys w
  rw [hlookup] at hcarried
  exact hcarried.exists_failed

theorem visitsOf_isPrefix (label : σ → ι)
    (hlabel : ∀ s key (w : ω), label (fetch s key w).source = label s) (sources : List σ)
    (keys : List String) (query : Option String) (w : ω) :
    (visitsOf [] sources keys query w).map (fun v => (v.key, label v.source)) <+:
      fetchPlan keys (sources.map label) := by
  by_cases hquery : ∀ text ∈ query, ∃ q, Query.parse text = .ok q
  · obtain ⟨failure, hcarried⟩ := exists_carriedOut label hlabel sources keys hquery w
    exact hcarried.isPrefix
  · simp only [not_forall, not_exists] at hquery
    obtain ⟨text, rfl, hq⟩ := hquery
    cases hparse : Query.parse text with
    | error e =>
      rw [visitsOf_of_malformed hparse]
      exact List.nil_prefix
    | ok q => exact absurd hparse (hq q)

def placed (sources : List σ) : List (Placed σ) :=
  sources.zipIdx.map fun e => ⟨e.2, e.1⟩

theorem map_source_placed (sources : List σ) : (placed sources).map Placed.source = sources := by
  rw [placed, List.map_map]
  exact List.zipIdx_map_fst 0 sources

theorem map_position_placed (sources : List σ) :
    (placed sources).map Placed.position = List.range sources.length := by
  rw [placed, List.map_map, List.range_eq_range']
  exact List.zipIdx_map_snd 0 sources

theorem imitated_placed : Imitated (Placed.source (σ := σ)) (id : ω → ω) :=
  fun _ _ _ => rfl

theorem run_placed (sources : List σ) (keys : List String) (query : Option String) (w : ω) :
    (run (placed sources) keys query w).map (List.map Placed.source) id = run sources keys query w := by
  have hrun := run_map imitated_placed (placed sources) keys query w
  rw [map_source_placed] at hrun
  exact hrun.symm

/-- Watching the fetches of a lookup changes nothing, and what is seen is this: for each distinct key in the
order of first appearance, a fetch from every source in turn, up to the first fetch that fails. Its error is
then all that comes of the lookup. Otherwise the dataset has the keys that were asked for, and of each the
fields that some source knows with the value of the last such source. -/
theorem lookup_in_order (sources : List σ) (keys : List String) (w : ω) :
    let watched := lookup ((placed sources).map Watched.mk) keys ⟨w, []⟩
    let visits := watched.world.visits
    let planned := fetchPlan keys (List.range sources.length)
    watched.map (List.map fun s => s.source.source) Watch.world = lookup sources keys w ∧
      match (lookup sources keys w).outcome with
      | .error e => CarriedOut Placed.position planned visits (some e)
      | .ok found => CarriedOut Placed.position planned visits none ∧
          ∀ key record, found.get? key = some record ↔
            key ∈ keys ∧ ∀ field, record.get? field = lastValue? key field visits := by
  intro watched visits planned
  have hplaced : (lookup (placed sources) keys w).map (List.map Placed.source) id = lookup sources keys w :=
    run_placed sources keys none w
  have hwatched : watched.map (List.map Watched.source) Watch.world = lookup (placed sources) keys w :=
    run_watched (placed sources) keys none ⟨w, []⟩
  refine ⟨?_, ?_⟩
  · rw [← hplaced, ← hwatched]
    simp only [Effect.map, List.map_map, id]
    rfl
  · have hcarried := lookup_carriedOut Placed.position (fun _ _ _ => rfl) (placed sources) keys w
    rw [map_position_placed] at hcarried
    rw [← hplaced]
    exact hcarried

end FieldSource

end AddressLookup
