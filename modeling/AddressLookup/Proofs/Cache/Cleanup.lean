import AddressLookup.Proofs.Cache.Storage
import AddressLookup.Proofs.Files.Stranding

/-! The temporary file of a save that fails. What cannot be written leaves none, but a file that was written
and then cannot be moved is left where it is. -/

namespace AddressLookup

namespace Cache

/-- A save that fails leaves something new at the temporary path if, and only if, the temporary file was
written and the path of the cache cannot take it, or the directories that were made on the way have brought
the temporary path into being; the latter needs a path that goes up somewhere. Whenever the first is so, the
save fails and its document stays in the temporary file. -/
theorem save_cleans_up_iff {c : Cache} {path : Path} (hpath : c.path = some path) (now : Instant)
    {fs : Files} (hfs : fs.Tree) (habsent : fs.probe path.temporary ≠ .ok true) :
    let content := (documentText (c.entries.filter fun _ e => !e.isExpired now)).toUTF8
    let saved := c.save now fs
    let prepared := FilePlan.prepared path fs
    (∀ e, saved.outcome = .error e → (saved.files.probe path.temporary ≠ .ok true ↔
      ¬ FilePlan.Stranded path content fs ∧ prepared.probe path.temporary ≠ .ok true)) ∧
    (Path.Step.up ∉ path.steps → prepared.probe path.temporary ≠ .ok true) ∧
    (FilePlan.Stranded path content fs →
      (∃ e, saved.outcome = .error e) ∧ saved.files.read path.temporary = .ok content) := by
  intro content saved prepared
  have hfiles : saved.files = ((FilePlan.replace path content).run fs).1 := files_save hpath now fs
  have houtcome : saved.outcome = ((FilePlan.replace path content).run fs).2.mapError .file :=
    outcome_save hpath now fs
  refine ⟨fun e hfailed => ?_, fun hdown hprobe => ?_, fun hstranded => ?_⟩
  · rw [houtcome] at hfailed
    cases hrun : ((FilePlan.replace path content).run fs).2 with
    | error cause => rw [hfiles, Ne, FilePlan.probe_temporary_of_error hfs hrun, not_or]
    | ok _ =>
      rw [hrun] at hfailed
      cases hfailed
  · exact habsent (FilePlan.probe_of_probe_prepared hfs hdown hprobe)
  · obtain ⟨⟨cause, hrun⟩, hread⟩ := hstranded.run_replace hfs
    rw [houtcome, hrun, hfiles]
    exact ⟨⟨.file cause, rfl⟩, hread⟩

theorem save_cleans_up_below_file :
    let path := Path.ofString "d/c.json"
    let fs := Files.put ⟨[], .top⟩ (Place.top.into (Path.ofString "d").bytes) (.file .empty)
    let t : Instant := ⟨0, 0, by decide, by decide⟩
    let c := (Cache.mk (some path) none ∅).set "1.1.1.1" .null t
    let content := (documentText (c.entries.filter fun _ e => !e.isExpired t)).toUTF8
    fs.Tree ∧ fs.probe path.temporary ≠ .ok true ∧ (c.save t fs).outcome = .error (.file .notDirectory) ∧
      ¬ FilePlan.Stranded path content fs ∧ (c.save t fs).files.probe path.temporary ≠ .ok true := by
  intro path fs t c content
  have hnone : Files.item? ⟨[], .top⟩ (Place.top.into (Path.ofString "d").bytes) = none := rfl
  have hfs : fs.Tree := Files.tree_empty.put rfl (by simp [hnone]) (.file .empty)
  have habsent : fs.probe path.temporary ≠ .ok true := by decide +kernel
  have hfailed : (c.save t fs).outcome = .error (.file .notDirectory) := by decide +kernel
  have hstranded : ¬ FilePlan.Stranded path content fs := by
    rintro ⟨hmakes, -, -⟩
    revert hmakes
    decide +kernel
  obtain ⟨hiff, hprepared, -⟩ := save_cleans_up_iff (show c.path = some path from rfl) t hfs habsent
  exact ⟨hfs, habsent, hfailed, hstranded, (hiff _ hfailed).2 ⟨hstranded, hprepared (by decide +kernel)⟩⟩

theorem save_onto_directory :
    let path := Path.ofString "c.json"
    let fs := Files.put ⟨[], .top⟩ (Place.top.into path.bytes) .directory
    let t : Instant := ⟨0, 0, by decide, by decide⟩
    let saved := (Cache.mk (some path) none ∅).save t fs
    fs.Tree ∧ fs.probe path.temporary = .ok false ∧ saved.outcome = .error (.file .isDirectory) ∧
      saved.files.probe path.temporary = .ok true ∧ saved.files.readText path.temporary = .ok "\x7b\x7d" := by
  intro path fs t saved
  have hnone : Files.item? ⟨[], .top⟩ (Place.top.into path.bytes) = none := rfl
  have hfs : fs.Tree := Files.tree_empty.put rfl (by simp [hnone]) .directory
  exact ⟨hfs, by decide +kernel, by decide +kernel, by decide +kernel, by decide +kernel⟩

end Cache

end AddressLookup
