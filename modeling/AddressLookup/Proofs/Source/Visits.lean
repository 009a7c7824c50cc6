import AddressLookup.Proofs.Source.Merge

/-! The fetches of a run. Every run can be made with sources that write down how each of their fetches is
called; with them it comes to the same, so what they write down are the fetches of the run itself. -/

namespace AddressLookup

structure Visit (σ ω : Type) where
  source : σ
  key : String
  world : ω

def Visit.fetched {σ ω : Type} [FieldSource σ ω] (v : Visit σ ω) : Effect Record σ ω :=
  FieldSource.fetch v.source v.key v.world

structure Watched (σ : Type) where
  source : σ

structure Watch (σ ω : Type) where
  world : ω
  visits : List (Visit σ ω)

theorem forall_split_concat {α : Type} {p : List α → α → Prop} {l : List α} {x : α}
    (h : ∀ earlier y later, l = earlier ++ y :: later → p earlier y) (hx : p l x) :
    ∀ earlier y later, l ++ [x] = earlier ++ y :: later → p earlier y := by
  intro earlier y later hsplit
  rcases List.eq_nil_or_concat later with rfl | ⟨later, last, rfl⟩
  · obtain ⟨rfl, hy⟩ := List.append_inj' hsplit rfl
    obtain rfl := (List.cons.inj hy).1
    exact hx
  · rw [List.concat_eq_append, ← List.cons_append, ← List.append_assoc] at hsplit
    exact h earlier y later (List.append_inj_left' hsplit rfl)

variable {σ ω : Type} [FieldSource σ ω]

namespace Watched

def fetch (s : Watched σ) (key : String) (w : Watch σ ω) : Effect Record (Watched σ) (Watch σ ω) :=
  let visit : Visit σ ω := ⟨s.source, key, w.world⟩
  ⟨visit.fetched.outcome, ⟨visit.fetched.source⟩, ⟨visit.fetched.world, w.visits ++ [visit]⟩⟩

def save (s : Watched σ) (w : Watch σ ω) : Effect Unit (Watched σ) (Watch σ ω) :=
  let saved := FieldSource.save s.source w.world
  ⟨saved.outcome, ⟨saved.source⟩, ⟨saved.world, w.visits⟩⟩

instance : FieldSource (Watched σ) (Watch σ ω) where
  name s := FieldSource.name s.source
  fetch := fetch
  save := save

end Watched

namespace FieldSource

theorem map_source_mk (sources : List σ) : (sources.map Watched.mk).map Watched.source = sources := by
  rw [List.map_map]
  exact List.map_id sources

theorem imitated_watched : Imitated (Watched.source (σ := σ)) (Watch.world (σ := σ) (ω := ω)) :=
  fun _ _ _ => rfl

theorem run_watched (sources : List σ) (keys : List String) (query : Option String) (w : Watch σ ω) :
    (run (sources.map Watched.mk) keys query w).map (List.map Watched.source) Watch.world =
      run sources keys query w.world := by
  rw [← run_map imitated_watched, map_source_mk]

/-- The fetches of a run, after those before it. -/
def visitsOf (before : List (Visit σ ω)) (sources : List σ) (keys : List String) (query : Option String)
    (w : ω) : List (Visit σ ω) :=
  (run (sources.map Watched.mk) keys query ⟨w, before⟩).world.visits

theorem run_visits {I : List σ → ω → List (Visit σ ω) → Prop}
    (hfetch : ∀ {before after : List σ} {v : Visit σ ω} {visits},
      I (before ++ v.source :: after) v.world visits →
        I (before ++ v.fetched.source :: after) v.fetched.world (visits ++ [v]))
    {sources : List σ} {w : ω} {visits : List (Visit σ ω)} (h : I sources w visits) (keys : List String)
    (query : Option String) :
    I (run sources keys query w).source (run sources keys query w).world
      (visitsOf visits sources keys query w) := by
  have hwatched : ∀ {before : List (Watched σ)} {s : Watched σ} {after : List (Watched σ)} {w : Watch σ ω},
      I ((before ++ s :: after).map Watched.source) w.world w.visits → ∀ key,
        I ((before ++ (fetch s key w).source :: after).map Watched.source) (fetch s key w).world.world
          (fetch s key w).world.visits := by
    intro before s after w h key
    rw [List.map_append, List.map_cons] at h ⊢
    exact hfetch (v := ⟨s.source, key, w.world⟩) h
  -- The run with watched sources keeps the fact, and it is the run itself but for what is written down.
  have hstart : I ((sources.map Watched.mk).map Watched.source) w visits := by rwa [map_source_mk]
  have hrun := run_preserves (I := fun sources w => I (sources.map Watched.source) w.world w.visits)
    hwatched (w := ⟨w, visits⟩) hstart keys query
  rwa [← run_watched sources keys query ⟨w, visits⟩]

theorem mem_visitsOf {sources : List σ} {w : ω} {visits : List (Visit σ ω)} {v : Visit σ ω} (h : v ∈ visits)
    (keys : List String) (query : Option String) : v ∈ visitsOf visits sources keys query w := by
  refine run_visits (I := fun _ _ visits => v ∈ visits) ?_ h keys query
  intro _ _ _ _ h
  exact List.mem_append_left _ h

end FieldSource

end AddressLookup
