import AddressLookup.Files.Plan
import AddressLookup.Proofs.Files.Path
import AddressLookup.Proofs.Files.Tree

/-! Replacing a file. Once the plan has gone through, the path reads as the new content. -/

namespace AddressLookup

namespace Files

theorem locate_names {fs : Files} {p : Path} {place : Place} {name : Name}
    (hname : p.steps.getLast? = some (.into name)) (hlocate : fs.locate p = .ok place) :
    place.names.head? = some name := by
  obtain ⟨_, _, hrest⟩ := bind_eq_ok_iff.1 hlocate
  obtain ⟨directory, _, hlast⟩ := bind_eq_ok_iff.1 hrest
  rw [hname] at hlast
  obtain ⟨_, _, hplace⟩ := bind_eq_ok_iff.1 hlast
  rw [← Except.ok.inj hplace]
  rfl

end Files

namespace FilePlan

variable {p : Path} {content : ByteArray} {fs : Files}

def made (p : Path) (fs : Files) : Files :=
  (fs.makeDirectories (fs.start p) p.steps.dropLast).1

theorem extends_made (p : Path) (fs : Files) : fs.Extends (made p fs) :=
  Files.extends_makeDirectories fs _ _

theorem run_act (action : FileAction) (next : Except FileError Unit → FilePlan) (fs : Files) :
    (act action next).run fs = (next (action.perform fs).2).run (action.perform fs).1 := rfl

theorem perform_makeParents_of_ok (h : ((FileAction.makeParents p).perform fs).2 = .ok ()) :
    ((FileAction.makeParents p).perform fs).1 = made p fs := by
  simp only [FileAction.perform] at h ⊢
  rcases hbytes : Files.checkBytes p.parent with e | _
  · rw [hbytes] at h
    exact absurd h (by simp)
  · rfl

theorem settle_eq_ok {outcome : Except FileError Files}
    (h : (FileAction.perform.settle fs outcome).2 = .ok ()) :
    outcome = .ok (FileAction.perform.settle fs outcome).1 := by
  cases outcome with
  | error e => exact absurd h (by simp [FileAction.perform.settle])
  | ok fs' => rfl

theorem run_replace_of_makes_error {e : FileError}
    (h : ((FileAction.makeParents p).perform fs).2 = .error e) :
    (replace p content).run fs = (((FileAction.makeParents p).perform fs).1, .error e) := by
  rw [replace, run_act, h]
  rfl

theorem run_replace_of_write_error {e : FileError}
    (hmakes : ((FileAction.makeParents p).perform fs).2 = .ok ())
    (h : (made p fs).write p.temporary content = .error e) :
    (replace p content).run fs = (made p fs, .error e) := by
  obtain ⟨e', hremove⟩ := Files.remove_of_write_error h
  rw [replace, run_act, hmakes, perform_makeParents_of_ok hmakes]
  simp only [run_act, FileAction.perform, h, FileAction.perform.settle, hremove, run]

theorem run_replace_of_write_ok {s : Files} (hmakes : ((FileAction.makeParents p).perform fs).2 = .ok ())
    (h : (made p fs).write p.temporary content = .ok s) :
    (replace p content).run fs = FileAction.perform.settle s (s.rename p.temporary p) := by
  rw [replace, run_act, hmakes, perform_makeParents_of_ok hmakes]
  simp only [run_act, FileAction.perform, h, FileAction.perform.settle, run]

theorem exists_write_of_ok (h : ((replace p content).run fs).2 = .ok ()) :
    ((FileAction.makeParents p).perform fs).2 = .ok () ∧
      ∃ s, (made p fs).write p.temporary content = .ok s := by
  rcases hmakes : ((FileAction.makeParents p).perform fs).2 with e | _
  · rw [run_replace_of_makes_error hmakes] at h
    cases h
  rcases hwrite : (made p fs).write p.temporary content with e | s
  · rw [run_replace_of_write_error hmakes hwrite] at h
    cases h
  exact ⟨rfl, s, rfl⟩

theorem run_replace_of_ok (h : ((replace p content).run fs).2 = .ok ()) :
    ∃ t u, (made p fs).locate p.temporary = .ok t ∧ (made p fs).item? t ≠ some .directory ∧
      ((made p fs).put t (.file content)).locate p = .ok u ∧
      ((made p fs).put t (.file content)).item? u ≠ some .directory ∧ p.needsDirectory = false ∧
      ((replace p content).run fs).1 =
        (((made p fs).put t (.file content)).erase t).put u (.file content) := by
  obtain ⟨hmakes, s, hwrite⟩ := exists_write_of_ok h
  rw [run_replace_of_write_ok hmakes hwrite] at h ⊢
  obtain ⟨t, ht, hdirectory, hneeds, rfl⟩ := Files.write_eq_ok hwrite
  have hrenamed := settle_eq_ok h
  obtain ⟨found, source, u, hread, hsource, hu, htarget, hneeds', hmoved⟩ := Files.rename_eq_ok hrenamed
  have hextends := Files.extends_put hdirectory (.file content)
  have hlocate := hextends.locate ht
  obtain rfl : t = source := Except.ok.inj (hlocate.symm.trans hsource)
  -- What is moved is what has just been written.
  have hcontent : content = found := by
    obtain ⟨place, hplace, hitem, -⟩ := Files.read_eq_ok_iff.1 hread
    obtain rfl : t = place := Except.ok.inj (hlocate.symm.trans hplace)
    rw [Files.item?_put_self (Files.ne_top_of_item? hdirectory)] at hitem
    injection hitem with hitem
    injection hitem
  subst hcontent
  exact ⟨t, u, ht, hdirectory, hu, htarget, hneeds', hmoved⟩

theorem erased {t u : Place} (hdirectory : fs.item? t ≠ some .directory)
    (htarget : (fs.put t (.file content)).item? u ≠ some .directory) :
    (fs.put t (.file content)).Extends ((fs.put t (.file content)).erase t) ∧
      ((fs.put t (.file content)).erase t).item? u ≠ some .directory := by
  have hplace := Files.ne_top_of_item? hdirectory
  have hsource : (fs.put t (.file content)).item? t ≠ some .directory := by
    rw [Files.item?_put_self hplace]
    simp
  exact ⟨Files.extends_erase hsource, Files.item?_erase_ne_directory htarget t⟩

theorem read_replace (h : ((replace p content).run fs).2 = .ok ()) :
    ((replace p content).run fs).1.read p = .ok content := by
  obtain ⟨t, u, ht, hdirectory, hu, htarget, hneeds, heq⟩ := run_replace_of_ok h
  rw [heq]
  obtain ⟨herase, htarget'⟩ := erased hdirectory htarget
  have hput := Files.extends_put htarget' (.file content)
  exact Files.read_eq_ok_iff.2 ⟨u, hput.locate (herase.locate hu),
    Files.item?_put_self (Files.ne_top_of_item? htarget') _ _, hneeds⟩

theorem run_replace_of_free {t u : Place} (hmakes : ((FileAction.makeParents p).perform fs).2 = .ok ())
    (ht : (made p fs).locate p.temporary = .ok t) (hfree : (made p fs).item? t ≠ some .directory)
    (htemporary : p.temporary.needsDirectory = false) (hu : (made p fs).locate p = .ok u)
    (hover : (made p fs).item? u ≠ some .directory) (hneeds : p.needsDirectory = false) :
    ((replace p content).run fs).2 = .ok () := by
  have hextends := Files.extends_put hfree (.file content)
  have hself := Files.item?_put_self (Files.ne_top_of_item? hfree) (made p fs) (.file content)
  have hread : ((made p fs).put t (.file content)).read p.temporary = .ok content :=
    Files.read_eq_ok_iff.2 ⟨t, hextends.locate ht, hself, htemporary⟩
  have hover' : ((made p fs).put t (.file content)).item? u ≠ some .directory := by
    by_cases hut : u = t
    · rw [hut, hself]
      simp
    · rwa [Files.item?_put_other hut]
  rw [run_replace_of_write_ok hmakes (Files.write_of_free ht hfree htemporary content),
    Files.rename_of_free hread (hextends.locate ht) (hextends.locate hu) hover' hneeds]
  rfl

theorem run_replace_again (h : ((replace p content).run fs).2 = .ok ()) (next : ByteArray) :
    ((replace p next).run ((replace p content).run fs).1).2 = .ok () := by
  obtain ⟨hmakes, s, hwrite⟩ := exists_write_of_ok h
  obtain ⟨-, -, -, htemporary, -⟩ := Files.write_eq_ok hwrite
  obtain ⟨t, u, ht, hdirectory, hu, htarget, hneeds, heq⟩ := run_replace_of_ok h
  obtain ⟨herase, htarget'⟩ := erased hdirectory htarget
  have hput := Files.extends_put hdirectory (.file content)
  have hmoved := herase.trans (Files.extends_put htarget' (.file content))
  rw [← heq] at hmoved
  generalize ((replace p content).run fs).1 = after at heq hmoved
  have hu' : after.locate p = .ok u := hmoved.locate hu
  have hfile : after.item? u = some (.file content) := by
    rw [heq]
    exact Files.item?_put_self (Files.ne_top_of_item? htarget') _ _
  have hfree : after.item? t ≠ some .directory := by
    by_cases htu : t = u
    · rw [htu, hfile]
      simp
    · rw [heq, Files.item?_put_other htu, Files.item?_erase_self (Files.ne_top_of_item? hdirectory)]
      simp
  -- By now the directories of the way are all there.
  have hmakes' : (FileAction.makeParents p).perform after = (after, .ok ()) := by
    obtain ⟨_, -, hrest⟩ := bind_eq_ok_iff.1 hu'
    obtain ⟨directory, hwalk, -⟩ := bind_eq_ok_iff.1 hrest
    rw [FileAction.perform] at hmakes ⊢
    split at hmakes
    · cases hmakes
    · exact Files.makeDirectories_of_walk hwalk
  have hmade : made p after = after := by
    rw [← perform_makeParents_of_ok (by rw [hmakes']), hmakes']
  refine run_replace_of_free (t := t) (u := u) (by rw [hmakes']) ?_ ?_ htemporary ?_ ?_ hneeds
  · rw [hmade]
    exact (hput.trans hmoved).locate ht
  · rwa [hmade]
  · rwa [hmade]
  · rw [hmade, hfile]
    simp

end FilePlan

end AddressLookup
