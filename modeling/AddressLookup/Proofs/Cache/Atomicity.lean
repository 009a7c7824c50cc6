import AddressLookup.Proofs.Cache.Storage
import AddressLookup.Proofs.Files.Stages

/-! Saving a cache at one stroke. In every tree of files that a save passes through, the place of the cache
file holds what it held before, or the whole new document. The one exception is a path that leads through
its own place on the way to it: there a missing file gives way to a directory, and the save fails. -/

namespace AddressLookup

namespace Cache

/-- After every action of a save, the path still leads where it led, and what is at its place is what was
there or the whole document of the entries that have not expired. -/
theorem save_atomic {c : Cache} {path : Path} (hpath : c.path = some path) (now : Instant) {fs : Files}
    (hfs : fs.Tree) :
    let content := (documentText (c.entries.filter fun _ e => !e.isExpired now)).toUTF8
    let states := (c.purge now).savePlan.states fs
    let saved := c.save now fs
    let target := fs.target path
    let way := fs.way path
    saved.files ∈ states ∧
    (∀ s ∈ states, (∀ place, s.locate path = .ok place → place = target) ∧
      (∀ place, fs.locate path = .ok place → s.locate path = .ok place) ∧
      (fs.Grown s way target ∨ s.item? target = some (.file content))) ∧
    (∀ e, saved.outcome = .error e → fs.Grown saved.files way target) ∧
    (saved.outcome = .ok () →
      (∀ s ∈ states, s.item? target = fs.item? target ∨ s.item? target = some (.file content)) ∧
      saved.files.read path = .ok content ∧
      saved.files.probe path.temporary = .ok false ∧
      ∀ place, place ≠ target → place ≠ fs.target path.temporary → fs.Grown saved.files way place) := by
  intro content states saved target way
  have hplan : (c.purge now).savePlan = .replace path content := savePlan_purge hpath now
  have hstates : states = (FilePlan.replace path content).states fs := by rw [← hplan]
  have hfiles : saved.files = ((FilePlan.replace path content).run fs).1 := by
    rw [← hplan]
    rfl
  have houtcome : saved.outcome = ((FilePlan.replace path content).run fs).2.mapError .file := by
    rw [← hplan]
    rfl
  have hmem : saved.files ∈ states := FilePlan.run_mem_states _ fs
  refine ⟨hmem, fun s hs => ?_, fun e he => ?_, fun hok => ?_⟩
  · rw [hstates] at hs
    have hextends := (FilePlan.extends_of_mem_states hs).1
    refine ⟨fun place hplace => ?_, fun place hplace => hextends.locate hplace, ?_⟩
    · exact (Files.eq_target_of_locate hplace).trans (hextends.target path)
    · exact (FilePlan.grown_of_mem_states_replace hfs hs).imp_right And.right
  · rw [hstates] at hmem
    refine (FilePlan.grown_of_mem_states_replace hfs hmem).resolve_right fun h => ?_
    rw [houtcome, h.1] at he
    cases he
  · have hdone := (run_replace_of_save hpath hok).1
    refine ⟨fun s hs => ?_, read_save hpath hok, ?_, fun place hplace hplace' => ?_⟩
    · rw [hstates] at hs
      exact FilePlan.item?_of_mem_states_replace hfs hdone hs
    · rw [hfiles]
      exact FilePlan.probe_temporary_replace hfs hdone
    · rw [hfiles]
      exact FilePlan.grown_replace hfs hdone hplace hplace'

theorem save_atomic_stale_temporary :
    let path := Path.ofString "d/c.json"
    let directory := Place.top.into (Path.ofString "d").bytes
    let stale := directory.into (Path.ofString "c.json.tmp").bytes
    let fs := (Files.put ⟨[], .top⟩ directory .directory).put stale (.file .empty)
    let t : Instant := ⟨0, 0, by decide, by decide⟩
    let c := (Cache.mk (some path) none ∅).set "1.1.1.1" .null t
    let content := (documentText (c.entries.filter fun _ e => !e.isExpired t)).toUTF8
    fs.Tree ∧ (c.save t fs).outcome = .ok () ∧ fs.probe path.temporary = .ok true ∧
      (c.save t fs).files.probe path.temporary = .ok false ∧ (c.save t fs).files.read path = .ok content ∧
      ∀ s ∈ (c.purge t).savePlan.states fs, s.item? (fs.target path) = fs.item? (fs.target path) ∨
        s.item? (fs.target path) = some (.file content) := by
  intro path directory stale fs t c content
  have hnone : Files.item? ⟨[], .top⟩ directory = none := rfl
  have hbare : (Files.put ⟨[], .top⟩ directory .directory).item? stale = none := rfl
  have hmade : (Files.put ⟨[], .top⟩ directory .directory).Tree :=
    Files.tree_empty.put rfl (by simp [hnone]) .directory
  have hfs : fs.Tree := hmade.put rfl (by simp [hbare]) (.file .empty)
  have hsave : (c.save t fs).outcome = .ok () := by decide +kernel
  obtain ⟨-, -, -, hok⟩ := save_atomic (show c.path = some path from rfl) t hfs
  obtain ⟨hstates, hread, hprobe, -⟩ := hok hsave
  exact ⟨hfs, hsave, by decide +kernel, hprobe, hread, hstates⟩

/-- A path that leads through its own place: the save fails, and leaves a directory where nothing was. -/
theorem save_through_itself :
    let path := Path.ofString "x/../x"
    let fs : Files := ⟨[], .top⟩
    let t : Instant := ⟨0, 0, by decide, by decide⟩
    let saved := (Cache.mk (some path) none ∅).save t fs
    fs.Tree ∧ fs.read path = .error .notFound ∧ saved.outcome = .error (.file .isDirectory) ∧
      saved.files.read path = .error .isDirectory ∧
      (fs.item? (fs.target path)).isSome = false ∧ (saved.files.item? (fs.target path)).isSome = true := by
  exact ⟨Files.tree_empty, by decide +kernel, by decide +kernel, by decide +kernel, by decide +kernel,
    by decide +kernel⟩

end Cache

end AddressLookup
