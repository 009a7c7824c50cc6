import AddressLookup.Proofs.Files.Stages

/-! What a replacement that fails leaves beside the file. It gives up while it makes directories, when it
writes the temporary file, or when it moves that file; only in the last case there is a new file left. -/

namespace AddressLookup

namespace Place

variable {place q : Place} {steps : List Path.Step}

theorem depth_after_le (place : Place) (step : Path.Step) : (place.after step).depth ≤ place.depth + 1 := by
  cases step with
  | up => exact Nat.le_trans (Nat.sub_le _ _) (Nat.le_succ _)
  | into name => exact Nat.le_refl _

theorem depth_le_of_mem_scanl (h : q ∈ steps.scanl Place.after place) :
    q.depth ≤ place.depth + steps.length := by
  induction steps generalizing place with
  | nil =>
    obtain rfl := List.mem_singleton.1 h
    exact Nat.le_refl _
  | cons step steps ih =>
    rw [List.scanl_cons, List.mem_cons] at h
    rcases h with rfl | h
    · exact Nat.le_add_right _ _
    · have hrest := ih h
      have hstep := depth_after_le place step
      rw [List.length_cons]
      omega

theorem depth_foldl_of_down (hdown : Path.Step.up ∉ steps) :
    (steps.foldl Place.after place).depth = place.depth + steps.length := by
  induction steps generalizing place with
  | nil => rfl
  | cons step steps ih =>
    obtain ⟨hstep, hrest⟩ := List.ne_and_not_mem_of_not_mem_cons hdown
    cases step with
    | up => exact absurd rfl hstep
    | into name =>
      rw [List.foldl_cons, ih hrest, List.length_cons]
      show place.depth + 1 + steps.length = _
      omega

end Place

namespace Files

variable {fs fs' : Files} {p : Path} {place last : Place} {steps : List Path.Step}

theorem probe_eq_true_iff :
    fs.probe p = .ok true ↔ ∃ place, fs.locate p = .ok place ∧ (fs.item? place).isSome = true := by
  unfold probe
  split
  · next place hplace => simp [hplace]
  · next hplace => simp [hplace]
  · next hplace => simp [hplace]

theorem Tree.start_of_down (h : fs.Tree) (hdown : Path.Step.up ∉ steps)
    (hlast : fs.item? (steps.foldl Place.after place) = some .directory) :
    fs.item? place = some .directory := by
  induction steps generalizing place with
  | nil => exact hlast
  | cons step steps ih =>
    obtain ⟨hstep, hrest⟩ := List.ne_and_not_mem_of_not_mem_cons hdown
    cases step with
    | up => exact absurd rfl hstep
    | into name => exact h.around _ _ (ih hrest hlast)

theorem Tree.walk_of_down (h : fs.Tree) (hdown : Path.Step.up ∉ steps)
    (hlast : fs.item? (steps.foldl Place.after place) = some .directory)
    (hwalk : fs'.walk place steps = .ok last) : fs.walk place steps = .ok last := by
  induction steps generalizing place with
  | nil => exact hwalk
  | cons step steps ih =>
    obtain ⟨hstep, hrest⟩ := List.ne_and_not_mem_of_not_mem_cons hdown
    obtain ⟨next, henter, hnext⟩ := bind_eq_ok_iff.1 hwalk
    obtain rfl := eq_after_of_enter henter
    refine bind_eq_ok_iff.2 ⟨_, ?_, ih hrest hlast hnext⟩
    cases step with
    | up => exact absurd rfl hstep
    | into name =>
      obtain ⟨_, hname, -⟩ := bind_eq_ok_iff.1 henter
      have hdirectory : fs.item? (place.into name) = some .directory := h.start_of_down hrest hlast
      refine bind_eq_ok_iff.2 ⟨_, hname, ?_⟩
      rw [hdirectory]
      rfl

theorem Tree.locate_of_down (h : fs.Tree) (hextends : fs.Extends fs') {name : Name}
    (hsteps : p.steps = steps ++ [.into name]) (hdown : Path.Step.up ∉ steps)
    (hlocate : fs'.locate p = .ok place) (hitem : (fs.item? place).isSome = true) :
    fs.locate p = .ok place := by
  have hstart : fs'.start p = fs.start p := by rw [Files.start, Files.start, hextends.workingDirectory]
  have hplace : place = (steps.foldl Place.after (fs.start p)).into name := by
    rw [eq_target_of_locate hlocate, target_of_steps hsteps, hstart]
    rfl
  have hdirectory : fs.item? (steps.foldl Place.after (fs.start p)) = some .directory := by
    obtain ⟨item, hfound⟩ := Option.isSome_iff_exists.1 hitem
    have haround := h.around place item hfound
    rwa [hplace, Place.around_into] at haround
  obtain ⟨_, hpath, hrest⟩ := bind_eq_ok_iff.1 hlocate
  obtain ⟨directory, hwalk, hlast⟩ := bind_eq_ok_iff.1 hrest
  rw [hsteps, List.dropLast_concat, hstart] at hwalk
  refine bind_eq_ok_iff.2 ⟨_, hpath, bind_eq_ok_iff.2 ⟨directory, ?_, hlast⟩⟩
  rw [hsteps, List.dropLast_concat]
  exact h.walk_of_down hdown hdirectory hwalk

theorem checkName_of_append {name more : Name} (h : checkName (name ++ more) = .ok ()) :
    checkName name = .ok () := by
  unfold checkName at h ⊢
  split at h
  · next hlength =>
    rw [List.length_append] at hlength
    exact if_pos (by omega)
  · cases h

theorem locate_of_locate_temporary {name : Name} {t : Place} (hname : p.lastName? = some name)
    (hpath : checkPath p = .ok ()) (h : fs.locate p.temporary = .ok t) :
    fs.locate p = .ok (fs.target p) := by
  obtain ⟨steps, hsteps, htemporary⟩ := Path.exists_steps_temporary hname
  obtain ⟨_, -, hrest⟩ := bind_eq_ok_iff.1 h
  obtain ⟨directory, hwalk, hlast⟩ := bind_eq_ok_iff.1 hrest
  rw [htemporary, List.dropLast_concat, start_temporary] at hwalk
  rw [htemporary, List.getLast?_concat] at hlast
  obtain ⟨_, hlong, -⟩ := bind_eq_ok_iff.1 hlast
  have hlocate : fs.locate p = .ok (directory.into name) := by
    refine bind_eq_ok_iff.2 ⟨_, hpath, bind_eq_ok_iff.2 ⟨directory, ?_, ?_⟩⟩
    · rwa [hsteps, List.dropLast_concat]
    · rw [hsteps, List.getLast?_concat]
      exact bind_eq_ok_iff.2 ⟨_, checkName_of_append hlong, rfl⟩
  rw [hlocate, eq_target_of_locate hlocate]

end Files

namespace FilePlan

variable {p : Path} {content : ByteArray} {fs s : Files} {e : FileError}

def prepared (p : Path) (fs : Files) : Files :=
  ((FileAction.makeParents p).perform fs).1

/-- No file can be put where the path leads, for what is there or for how the path is written. -/
def Barred (p : Path) (fs : Files) : Prop :=
  (made p fs).item? (fs.target p) = some .directory ∨ p.needsDirectory = true ∨ Files.checkPath p ≠ .ok ()

/-- The directories can be made and the temporary file can be written, but it cannot be moved. -/
structure Stranded (p : Path) (content : ByteArray) (fs : Files) : Prop where
  makes : ((FileAction.makeParents p).perform fs).2 = .ok ()
  writes : ∃ s, (made p fs).write p.temporary content = .ok s
  barred : Barred p fs

theorem exists_written_of_write (h : (made p fs).write p.temporary content = .ok s) :
    ∃ t, Written p content fs s t ∧ s.read p.temporary = .ok content := by
  obtain ⟨t, ht, hdirectory, hneeds, rfl⟩ := Files.write_eq_ok h
  refine ⟨t, ⟨ht, hdirectory, rfl⟩, Files.read_eq_ok_iff.2 ⟨t, ?_, ?_, hneeds⟩⟩
  · exact (Files.extends_put hdirectory _).locate ht
  · exact Files.item?_put_self (Files.ne_top_of_item? hdirectory) _ _

theorem rename_eq_error_iff (hfs : fs.Tree) (h : (made p fs).write p.temporary content = .ok s) :
    (∃ e, s.rename p.temporary p = .error e) ↔ Barred p fs := by
  obtain ⟨t, hwritten, hread⟩ := exists_written_of_write h
  have hitem : s.item? (fs.target p) = (made p fs).item? (fs.target p) := by
    rw [hwritten.eq_put, Files.item?_put_other (hwritten.ne_target hfs).symm]
  have htarget : s.target p = fs.target p := hwritten.extends.target p
  constructor
  · rintro ⟨e, hrename⟩
    refine Classical.byContradiction fun hfree => ?_
    simp only [Barred, not_or, Classical.not_not, Bool.not_eq_true] at hfree
    obtain ⟨hdirectory, hneeds, hpath⟩ := hfree
    obtain ⟨name, hname⟩ := hwritten.exists_lastName? hfs
    obtain ⟨source, hsource, -⟩ := Files.read_eq_ok_iff.1 hread
    have hlocate := Files.locate_of_locate_temporary hname hpath hsource
    rw [htarget] at hlocate
    rw [← hitem] at hdirectory
    rw [Files.rename_of_free hread hsource hlocate hdirectory hneeds] at hrename
    cases hrename
  · intro hbarred
    cases hrename : s.rename p.temporary p with
    | error e => exact ⟨e, rfl⟩
    | ok moved =>
      obtain ⟨_, _, target, -, -, hlocate, hfree, hneeds, -⟩ := Files.rename_eq_ok hrename
      rw [Files.eq_target_of_locate hlocate, htarget, hitem] at hfree
      obtain ⟨_, hpath, -⟩ := bind_eq_ok_iff.1 hlocate
      rcases hbarred with hdirectory | hneeds' | hpath'
      · exact absurd hdirectory hfree
      · rw [hneeds] at hneeds'
        cases hneeds'
      · exact absurd hpath hpath'

theorem Stranded.run_replace (hfs : fs.Tree) (h : Stranded p content fs) :
    (∃ e, ((replace p content).run fs).2 = .error e) ∧
      ((replace p content).run fs).1.read p.temporary = .ok content := by
  obtain ⟨s, hwrite⟩ := h.writes
  obtain ⟨e, hrename⟩ := (rename_eq_error_iff hfs hwrite).2 h.barred
  obtain ⟨t, -, hread⟩ := exists_written_of_write hwrite
  rw [run_replace_of_write_ok h.makes hwrite, hrename]
  exact ⟨⟨e, rfl⟩, hread⟩

theorem eq_prepared_of_not_stranded (hfs : fs.Tree) (h : ((replace p content).run fs).2 = .error e)
    (hnot : ¬ Stranded p content fs) : ((replace p content).run fs).1 = prepared p fs := by
  rcases hmakes : ((FileAction.makeParents p).perform fs).2 with e' | _
  · rw [run_replace_of_makes_error hmakes, prepared]
  rcases hwrite : (made p fs).write p.temporary content with e' | s
  · rw [run_replace_of_write_error hmakes hwrite, prepared, perform_makeParents_of_ok hmakes]
  · rw [run_replace_of_write_ok hmakes hwrite] at h
    have hbarred := (rename_eq_error_iff hfs hwrite).1 ⟨e, (settle_error h).1⟩
    exact absurd ⟨hmakes, ⟨s, hwrite⟩, hbarred⟩ hnot

theorem probe_temporary_of_error (hfs : fs.Tree) (h : ((replace p content).run fs).2 = .error e) :
    ((replace p content).run fs).1.probe p.temporary = .ok true ↔
      Stranded p content fs ∨ (prepared p fs).probe p.temporary = .ok true := by
  by_cases hstranded : Stranded p content fs
  · obtain ⟨place, hplace, hitem, -⟩ := Files.read_eq_ok_iff.1 (hstranded.run_replace hfs).2
    refine iff_of_true (Files.probe_eq_true_iff.2 ⟨place, hplace, ?_⟩) (.inl hstranded)
    rw [hitem]
    rfl
  · rw [eq_prepared_of_not_stranded hfs h hstranded, or_iff_right hstranded]

theorem made_of_nameless (hname : p.lastName? = none) (hdown : Path.Step.up ∉ p.steps) (fs : Files) :
    made p fs = fs := by
  rcases List.eq_nil_or_concat p.steps with hnil | ⟨steps, step, hsteps⟩
  · rw [made, hnil]
    rfl
  · rw [List.concat_eq_append] at hsteps
    rw [hsteps] at hdown
    cases step with
    | up => exact absurd (List.mem_append_right steps (List.mem_singleton_self _)) hdown
    | into name =>
      rw [Path.lastName?, hsteps, List.getLast?_concat] at hname
      cases hname

theorem item?_temporary_made {name : Name} (hname : p.lastName? = some name)
    (hdown : Path.Step.up ∉ p.steps) (fs : Files) :
    (made p fs).item? (fs.target p.temporary) = fs.item? (fs.target p.temporary) := by
  obtain ⟨steps, hsteps, htemporary⟩ := Path.exists_steps_temporary hname
  have hdown : Path.Step.up ∉ steps := fun hup => hdown (hsteps ▸ List.mem_append_left _ hup)
  refine (grown_made p fs _).resolve_right fun hgrown => ?_
  have hmem := hgrown.1
  rw [Files.way, hsteps, List.dropLast_concat, Files.target_of_steps htemporary,
    Files.start_temporary] at hmem
  have hdepth := Place.depth_le_of_mem_scanl hmem
  rw [← Place.depth_foldl_of_down hdown] at hdepth
  exact absurd hdepth (Nat.not_succ_le_self _)

theorem probe_of_probe_prepared (hfs : fs.Tree) (hdown : Path.Step.up ∉ p.steps)
    (h : (prepared p fs).probe p.temporary = .ok true) : fs.probe p.temporary = .ok true := by
  rcases perform_makeParents p fs with hsame | hmade
  · rwa [prepared, hsame] at h
  rw [prepared, hmade] at h
  rcases hname : p.lastName? with _ | name
  · rwa [made_of_nameless hname hdown] at h
  obtain ⟨steps, hsteps, htemporary⟩ := Path.exists_steps_temporary hname
  obtain ⟨place, hlocate, hitem⟩ := Files.probe_eq_true_iff.1 h
  have hplace := (Files.eq_target_of_locate hlocate).trans ((extends_made p fs).target _)
  rw [hplace, item?_temporary_made hname hdown, ← hplace] at hitem
  have hdown : Path.Step.up ∉ steps := fun hup => hdown (hsteps ▸ List.mem_append_left _ hup)
  exact Files.probe_eq_true_iff.2
    ⟨place, hfs.locate_of_down (extends_made p fs) htemporary hdown hlocate hitem, hitem⟩

end FilePlan

end AddressLookup
