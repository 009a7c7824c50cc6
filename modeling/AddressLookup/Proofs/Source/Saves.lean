import AddressLookup.Proofs.Files.Apart
import AddressLookup.Proofs.Source.Reopen
import AddressLookup.Source.Journal
import AddressLookup.Source.Table

/-! Saving all sources. Each of them is saved once, whichever of the others fail, and what is reported is the
first failure. The caches of the services have files apart, so that neither save shows in the other's file. -/

namespace AddressLookup

def Saving.call {σ ω : Type} [FieldSource σ ω] (s : Saving σ ω) : Call :=
  .save (FieldSource.name s.source) s.saved.outcome

namespace FieldSource

section

variable {σ ω : Type} [FieldSource σ ω]

theorem saveAll_journaled (sources : List σ) (w : ω) (calls : List Call) :
    saveAll (sources.map Journaled.mk) ⟨w, calls⟩ =
      (saveAll sources w).map (List.map Journaled.mk) fun after =>
        ⟨after, calls ++ (savesOf sources w).map Saving.call⟩ := by
  induction sources generalizing w calls with
  | nil => simp only [savesOf, List.map_nil, List.append_nil, saveAll, Effect.map]
  | cons s rest ih =>
    have hsave : save (Journaled.mk s) (Journal.mk w calls) =
        ⟨(save s w).outcome, ⟨(save s w).source⟩, ⟨(save s w).world, calls ++ [Saving.call ⟨s, w⟩]⟩⟩ := rfl
    simp only [savesOf, List.map_cons, saveAll, hsave, ih, Effect.map, List.append_assoc, List.singleton_append]

theorem saveAll_eq_error_iff {sources : List σ} {w : ω} {e : Error} :
    (saveAll sources w).outcome = .error e ↔
      ∃ before first after, savesOf sources w = before ++ first :: after ∧
        (∀ saving ∈ before, saving.saved.outcome = .ok ()) ∧ first.saved.outcome = .error e := by
  induction sources generalizing w with
  | nil =>
    refine iff_of_false (by simp [saveAll]) ?_
    rintro ⟨before, first, after, hsplit, -⟩
    exact List.append_ne_nil_of_right_ne_nil before (List.cons_ne_nil first after) hsplit.symm
  | cons s rest ih =>
    rw [saveAll, savesOf]
    rcases hsave : (save s w).outcome with failure | _
    · -- The others are saved all the same, but this is the failure that counts.
      simp only []
      constructor
      · intro h
        exact ⟨[], ⟨s, w⟩, _, rfl, fun _ hmem => absurd hmem List.not_mem_nil, hsave.trans h⟩
      · rintro ⟨before, first, after, hsplit, hbefore, hfirst⟩
        rw [← hsave]
        rcases before with _ | ⟨saving, before⟩
        · rwa [← (List.cons.inj hsplit).1] at hfirst
        · have hok := hbefore saving List.mem_cons_self
          rw [← (List.cons.inj hsplit).1] at hok
          exact absurd (hsave.symm.trans hok) (by simp)
    · simp only [ih]
      constructor
      · rintro ⟨before, first, after, hsplit, hbefore, hfirst⟩
        exact ⟨⟨s, w⟩ :: before, first, after, by rw [hsplit, List.cons_append],
          List.forall_mem_cons.2 ⟨hsave, hbefore⟩, hfirst⟩
      · rintro ⟨before, first, after, hsplit, hbefore, hfirst⟩
        rcases before with _ | ⟨saving, before⟩
        · rw [← (List.cons.inj hsplit).1] at hfirst
          exact absurd (hsave.symm.trans hfirst) (by simp)
        · exact ⟨before, first, after, (List.cons.inj hsplit).2, (List.forall_mem_cons.1 hbefore).2, hfirst⟩

end

end FieldSource

theorem Service.apart (c : Config) {s t : Service} (h : t ≠ s) :
    Path.Apart (c.cacheFile s.cacheFileName) (c.cacheFile t.cacheFileName) :=
  ⟨c.cacheDirectory.opened, s.fileName, t.fileName, c.cacheDirectory.endsIn_join s.plain_fileName,
    c.cacheDirectory.endsIn_join t.plain_fileName, fileName_ne h, s.fileName_ne_temporaryName t,
    t.fileName_ne_temporaryName s⟩

namespace Cache

theorem save_apart {a b : Cache} {p q : Path} (ha : a.path = some p) (hb : b.path = some q) (h : Path.Apart p q)
    (now later : Instant) (fs : Files) :
    let first := a.save now fs
    let both := b.save later first.files
    both.outcome = (b.save later fs).outcome ∧ both.files.read q = (b.save later fs).files.read q ∧
      both.files.read p = first.files.read p := by
  intro first both
  have hrun := h.run_replace (documentText (a.purge now).entries).toUTF8
    (documentText (b.purge later).entries).toUTF8 fs
  rw [← files_save ha, ← files_save hb, ← files_save hb] at hrun
  refine ⟨?_, hrun.2⟩
  rw [outcome_save hb, outcome_save hb, hrun.1]

end Cache

namespace FieldSource

/-- When all sources are saved, each of them is saved exactly once, in their order, whichever of the saves fail;
all is well exactly if no save fails, and else the first failure is reported. With the sources of two services,
each save comes to what it would come to alone, and so does the file of each cache, whatever obstructs the
other. -/
theorem saveAll_attempts_all {σ ω : Type} [FieldSource σ ω] (sources : List σ) (start : ω) {c : Config}
    {s t : RemoteSource} {service other : Service}
    (hs : s.cache.path = some (c.cacheFile service.cacheFileName))
    (ht : t.cache.path = some (c.cacheFile other.cacheFileName)) (hne : other ≠ service) (w : World) :
    let ran := saveAll (sources.map Journaled.mk) ⟨start, []⟩
    let saves := savesOf sources start
    let both := saveAll [s, t] w
    let file := c.cacheFile service.cacheFileName
    let otherFile := c.cacheFile other.cacheFileName
    ran.map (List.map Journaled.source) Journal.world = saveAll sources start ∧
      saves.map Saving.source = sources ∧
      ran.world.calls = saves.map Saving.call ∧
      ran.source.map Journaled.source = saves.map (fun saving => saving.saved.source) ∧
      (ran.outcome = .ok () ↔ ∀ saving ∈ saves, saving.saved.outcome = .ok ()) ∧
      (∀ e, ran.outcome = .error e ↔ ∃ before first after, saves = before ++ first :: after ∧
        (∀ saving ∈ before, saving.saved.outcome = .ok ()) ∧ first.saved.outcome = .error e) ∧
      (savesOf [s, t] w).map (fun saving => saving.saved.outcome) =
        [(save s w).outcome, (save t w.tick).outcome] ∧
      both.world.files.read file = (save s w).world.files.read file ∧
      both.world.files.read otherFile = (save t w.tick).world.files.read otherFile := by
  intro ran saves both file otherFile
  have hran : ran = (saveAll sources start).map (List.map Journaled.mk) fun after =>
      ⟨after, saves.map Saving.call⟩ := saveAll_journaled sources start []
  have hview : ran.map (List.map Journaled.source) Journal.world = saveAll sources start := by
    simp only [hran, Effect.map, List.map_map, Function.comp_def, List.map_id']
  have hsource : ran.source.map Journaled.source = (saveAll sources start).source := congrArg Effect.source hview
  have hreported : ran.outcome = (saveAll sources start).outcome := congrArg Effect.outcome hview
  obtain ⟨houtcome, hother, hfile⟩ := Cache.save_apart hs ht (Service.apart c hne) w.now w.tick.now w.files
  refine ⟨hview, map_source_savesOf sources start, by rw [hran]; rfl, ?_, ?_, fun e => ?_, ?_, hfile, hother⟩
  · rw [hsource, map_saved_savesOf]
  · rw [hreported, saveAll_eq_ok_iff]
  · rw [hreported, saveAll_eq_error_iff]
  · exact congrArg (fun outcome => [(save s w).outcome, outcome]) houtcome

open RemoteSource in
/-- Of three sources the last two refuse, and the second is reported. Where there is a directory in place of the
file of one service, its source cannot be saved, and the other one's file is written all the same. -/
theorem saveAll_attempts_all_obstructed :
    let sources : List TableSource := [⟨"a", ∅, ∅, none⟩, ⟨"b", ∅, ∅, some "full"⟩, ⟨"c", ∅, ∅, some "gone"⟩]
    let ran := saveAll (sources.map Journaled.mk) ⟨(), []⟩
    let c := Config.standard
    let geo := blank c .geo
    let rdap := blank c .rdap
    let file := c.cacheFile Service.geo.cacheFileName
    let otherFile := c.cacheFile Service.rdap.cacheFileName
    let w : World := .initial (Files.makeDirectories ⟨[], .top⟩ .top file.steps).1 .unreachable
      (.still ⟨0, 0, by decide, by decide⟩)
    let both := saveAll [geo, rdap] w
    geo.cache.path = some file ∧ rdap.cache.path = some otherFile ∧ Service.rdap ≠ Service.geo ∧
      ran.outcome = .error (.configuration "full") ∧ ran.world.calls.length = 3 ∧
      both.outcome = .error (.file .isDirectory) ∧ both.world.files.readText file = .error .isDirectory ∧
      both.world.files.readText otherFile = .ok "\x7b\x7d" ∧
      both.world.files.read otherFile = (save rdap w.tick).world.files.read otherFile := by
  intro sources ran c geo rdap file otherFile w both
  have hgeo : geo.cache.path = some file := rfl
  have hrdap : rdap.cache.path = some otherFile := rfl
  have hne : Service.rdap ≠ Service.geo := by decide
  obtain ⟨-, hsaves, hcalls, -, -, hfirst, -, -, hother⟩ := saveAll_attempts_all sources () hgeo hrdap hne w
  have hlength : ran.world.calls.length = 3 := by
    rw [hcalls, List.length_map, ← List.length_map, hsaves]
    rfl
  have houtcome : ran.outcome = .error (.configuration "full") :=
    (hfirst _).2 ⟨[⟨⟨"a", ∅, ∅, none⟩, ()⟩], ⟨⟨"b", ∅, ∅, some "full"⟩, ()⟩, _, rfl,
      fun saving hsaving => by rw [List.mem_singleton.1 hsaving]; rfl, rfl⟩
  exact ⟨hgeo, hrdap, hne, houtcome, hlength, by decide +kernel, by decide +kernel, by decide +kernel, hother⟩

end FieldSource

end AddressLookup
