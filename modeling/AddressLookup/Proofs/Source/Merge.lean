import AddressLookup.Source.Merge
import Mathlib.Data.List.Forall2

/-! What lookups and saving leave of the sources. A fact that a single fetch or save keeps, about each source
or about all of them and their surroundings, is kept by whole runs, whichever of the fetches fail. -/

namespace AddressLookup

def Effect.map {α σ ω τ υ : Type} (f : σ → τ) (g : ω → υ) (x : Effect α σ ω) : Effect α τ υ :=
  ⟨x.outcome, f x.source, g x.world⟩

structure Saving (σ ω : Type) where
  source : σ
  world : ω

def Saving.saved {σ ω : Type} [FieldSource σ ω] (s : Saving σ ω) : Effect Unit σ ω :=
  FieldSource.save s.source s.world

namespace FieldSource

section

variable {σ ω τ υ : Type} [FieldSource σ ω] [FieldSource τ υ] {f : σ → τ} {g : ω → υ}

/-- Whatever a source does when it is asked, the source that is seen of it does as well. -/
def Imitated (f : σ → τ) (g : ω → υ) : Prop :=
  ∀ s key w, fetch (f s) key (g w) = (fetch s key w).map f g

variable (h : Imitated f g)
include h

theorem fetchInto_map (r : Record) (sources : List σ) (key : String) (w : ω) :
    fetchInto r (sources.map f) key (g w) = (fetchInto r sources key w).map (List.map f) g := by
  induction sources generalizing r w with
  | nil => rfl
  | cons s rest ih =>
    rw [List.map_cons, fetchInto, fetchInto, h]
    simp only [Effect.map]
    split
    · rfl
    · rw [ih]
      rfl

theorem lookupInto_map (d : Dataset) (sources : List σ) (keys : List String) (w : ω) :
    lookupInto d (sources.map f) keys (g w) = (lookupInto d sources keys w).map (List.map f) g := by
  induction keys generalizing d sources w with
  | nil => rfl
  | cons key keys ih =>
    rw [lookupInto, lookupInto]
    split
    · exact ih d sources w
    · simp only [fetchAll, fetchInto_map h, Effect.map]
      split
      · rfl
      · rw [ih]
        rfl

theorem run_map (sources : List σ) (keys : List String) (query : Option String) (w : ω) :
    run (sources.map f) keys query (g w) = (run sources keys query w).map (List.map f) g := by
  have hlookup : lookup (sources.map f) keys (g w) = (lookup sources keys w).map (List.map f) g :=
    lookupInto_map h ∅ sources keys w
  unfold run
  split
  · exact hlookup
  · split
    · rfl
    · rw [hlookup]
      rfl

end

variable {σ ω ι : Type} [FieldSource σ ω]

theorem run_of_malformed {text : String} {e : Query.ParseError} (h : Query.parse text = .error e)
    (sources : List σ) (keys : List String) (w : ω) :
    run sources keys (some text) w = ⟨.error (.query e), sources, w⟩ := by
  simp only [run, h]

theorem run_of_parse {text : String} {q : Query} (h : Query.parse text = .ok q) (sources : List σ)
    (keys : List String) (w : ω) :
    run sources keys (some text) w =
      { lookup sources keys w with outcome := (lookup sources keys w).outcome.map q.apply } := by
  simp only [run, h]

section

variable {I : List σ → ω → Prop} (hfetch : ∀ {before s after w}, I (before ++ s :: after) w →
  ∀ key, I (before ++ (fetch s key w).source :: after) (fetch s key w).world)
include hfetch

theorem fetchInto_preserves {before sources : List σ} {w : ω} (h : I (before ++ sources) w) (r : Record)
    (key : String) :
    I (before ++ (fetchInto r sources key w).source) (fetchInto r sources key w).world := by
  induction sources generalizing before r w with
  | nil => exact h
  | cons s rest ih =>
    have hfetched := hfetch h key
    rw [fetchInto]
    split
    · exact hfetched
    · rw [List.append_cons] at hfetched
      simpa using ih hfetched _

theorem lookupInto_preserves {sources : List σ} {w : ω} (h : I sources w) (d : Dataset)
    (keys : List String) :
    I (lookupInto d sources keys w).source (lookupInto d sources keys w).world := by
  induction keys generalizing d sources w with
  | nil => exact h
  | cons key keys ih =>
    have hfetched := fetchInto_preserves hfetch (show I ([] ++ sources) w from h) ∅ key
    rw [lookupInto]
    split
    · exact ih h d
    · simp only [fetchAll]
      split
      · exact hfetched
      · exact ih hfetched _

theorem run_preserves {sources : List σ} {w : ω} (h : I sources w) (keys : List String)
    (query : Option String) :
    I (run sources keys query w).source (run sources keys query w).world := by
  have hlookup : I (lookup sources keys w).source (lookup sources keys w).world :=
    lookupInto_preserves hfetch h ∅ keys
  unfold run
  split
  · exact hlookup
  · split
    · exact h
    · exact hlookup

end

section

variable {p : ι → σ → Prop} {is : List ι} {sources : List σ}

theorem forall₂_replace {before after : List σ} {s s' : σ} (h : List.Forall₂ p is (before ++ s :: after))
    (hs : ∀ {i}, p i s → p i s') : List.Forall₂ p is (before ++ s' :: after) := by
  induction before generalizing is with
  | nil =>
    obtain ⟨i, is, hi, hrest, rfl⟩ := List.forall₂_cons_right_iff.1 h
    exact .cons (hs hi) hrest
  | cons first before ih =>
    obtain ⟨i, is, hi, hrest, rfl⟩ := List.forall₂_cons_right_iff.1 h
    exact .cons hi (ih hrest)

theorem run_keeps (hfetch : ∀ {i s}, p i s → ∀ key (w : ω), p i (fetch s key w).source)
    (h : List.Forall₂ p is sources) (keys : List String) (query : Option String) (w : ω) :
    List.Forall₂ p is (run sources keys query w).source := by
  have hstep : ∀ {before s after} {w : ω}, List.Forall₂ p is (before ++ s :: after) →
      ∀ key, List.Forall₂ p is (before ++ (fetch s key w).source :: after) :=
    fun hall key => forall₂_replace hall fun hs => hfetch hs key _
  exact run_preserves (I := fun sources _ => List.Forall₂ p is sources) hstep h keys query

theorem saveAll_keeps (hsave : ∀ {i s}, p i s → ∀ w : ω, p i (save s w).source)
    (h : List.Forall₂ p is sources) (w : ω) :
    List.Forall₂ p is (saveAll sources w).source := by
  induction h generalizing w with
  | nil => exact .nil
  | cons hs _ ih => exact .cons (hsave hs w) (ih _)

end

def savesOf : List σ → ω → List (Saving σ ω)
  | [], _ => []
  | s :: rest, w => ⟨s, w⟩ :: savesOf rest (save s w).world

theorem map_source_savesOf (sources : List σ) (w : ω) : (savesOf sources w).map Saving.source = sources := by
  induction sources generalizing w with
  | nil => rfl
  | cons s rest ih => rw [savesOf, List.map_cons, ih]

theorem map_saved_savesOf (sources : List σ) (w : ω) :
    (savesOf sources w).map (fun saving => saving.saved.source) = (saveAll sources w).source := by
  induction sources generalizing w with
  | nil => rfl
  | cons s rest ih =>
    rw [savesOf, List.map_cons, ih]
    rfl

theorem saveAll_eq_ok_iff {sources : List σ} {w : ω} : (saveAll sources w).outcome = .ok () ↔
    ∀ saving ∈ savesOf sources w, saving.saved.outcome = .ok () := by
  induction sources generalizing w with
  | nil => exact iff_of_true rfl fun _ h => absurd h List.not_mem_nil
  | cons s rest ih =>
    rw [savesOf, List.forall_mem_cons, ← ih, saveAll, Saving.saved]
    cases (save s w).outcome with
    | error e => simp
    | ok _ => simp

end FieldSource

end AddressLookup
