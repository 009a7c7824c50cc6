import AddressLookup.Proofs.Files.Beside

/-! The trees of files that the replacement of a file passes through. At every stage a path leads where it led
before, the place of the file holds what was there or the whole new content, and other files are left alone. -/

namespace AddressLookup

namespace FilePlan

variable {p : Path} {content : ByteArray} {fs s : Files}

theorem states_act (action : FileAction) (next : Except FileError Unit → FilePlan) (fs : Files) :
    (act action next).states fs = fs :: (next (action.perform fs).2).states (action.perform fs).1 := rfl

theorem run_mem_states (plan : FilePlan) (fs : Files) : (plan.run fs).1 ∈ plan.states fs := by
  induction plan generalizing fs with
  | finish result => exact List.mem_singleton.2 rfl
  | act action next ih =>
    rw [run_act, states_act]
    exact List.mem_cons_of_mem _ (ih _ _)

theorem perform_makeParents (p : Path) (fs : Files) :
    ((FileAction.makeParents p).perform fs).1 = fs ∨ ((FileAction.makeParents p).perform fs).1 = made p fs := by
  simp only [FileAction.perform]
  cases Files.checkBytes p.parent with
  | error e => exact .inl rfl
  | ok _ => exact .inr rfl

theorem extends_settle {outcome : Except FileError Files} (h : ∀ fs', outcome = .ok fs' → fs.Extends fs') :
    fs.Extends (FileAction.perform.settle fs outcome).1 := by
  cases outcome with
  | error e => exact .refl fs
  | ok fs' => exact h fs' rfl

theorem extends_perform (action : FileAction) (fs : Files) : fs.Extends (action.perform fs).1 := by
  cases action with
  | makeParents p =>
    rcases perform_makeParents p fs with heq | heq
    · rw [heq]
      exact .refl fs
    · rw [heq]
      exact extends_made p fs
  | write p content =>
    refine extends_settle fun fs' h => ?_
    obtain ⟨t, -, hdirectory, -, rfl⟩ := Files.write_eq_ok h
    exact Files.extends_put hdirectory _
  | remove p =>
    refine extends_settle fun fs' h => ?_
    obtain ⟨t, -, hdirectory, rfl⟩ := Files.remove_eq_ok h
    exact Files.extends_erase hdirectory
  | rename p q =>
    refine extends_settle fun fs' h => ?_
    obtain ⟨content, source, target, hread, hsource, -, htarget, -, rfl⟩ := Files.rename_eq_ok h
    have hfile := Files.ne_directory_of_read hread hsource
    exact (Files.extends_erase hfile).trans
      (Files.extends_put (Files.item?_erase_ne_directory htarget source) _)

theorem extends_run (plan : FilePlan) (fs : Files) : fs.Extends (plan.run fs).1 := by
  induction plan generalizing fs with
  | finish result => exact .refl fs
  | act action next ih => exact (extends_perform action fs).trans (ih _ _)

theorem extends_of_mem_states {plan : FilePlan} (h : s ∈ plan.states fs) :
    fs.Extends s ∧ s.Extends (plan.run fs).1 := by
  induction plan generalizing fs with
  | finish result =>
    rw [List.mem_singleton.1 h]
    exact ⟨.refl fs, .refl fs⟩
  | act action next ih =>
    rw [states_act, List.mem_cons] at h
    rcases h with rfl | h
    · exact ⟨.refl s, extends_run _ s⟩
    · obtain ⟨hbefore, hafter⟩ := ih _ h
      exact ⟨(extends_perform action fs).trans hbefore, hafter⟩

theorem settle_error {outcome : Except FileError Files} {e : FileError}
    (h : (FileAction.perform.settle fs outcome).2 = .error e) :
    outcome = .error e ∧ (FileAction.perform.settle fs outcome).1 = fs := by
  cases outcome with
  | error e' => exact ⟨congrArg _ (Except.error.inj h), rfl⟩
  | ok fs' => cases h

structure Written (p : Path) (content : ByteArray) (fs s : Files) (t : Place) : Prop where
  locate : (made p fs).locate p.temporary = .ok t
  ne_directory : (made p fs).item? t ≠ some .directory
  eq_put : s = (made p fs).put t (.file content)

/-- The trees of files that a replacement can stop in: nothing is done, the directories are made, the
temporary file is written, or all is done. -/
theorem cases_of_mem_states_replace (h : s ∈ (replace p content).states fs) :
    (s = fs ∨ s = made p fs) ∨ (∃ t, Written p content fs s t) ∨
      ((replace p content).run fs).2 = .ok () ∧ s = ((replace p content).run fs).1 := by
  rw [replace, states_act, List.mem_cons] at h
  rw [replace, run_act]
  rcases h with rfl | h
  · exact .inl (.inl rfl)
  rcases hmake : ((FileAction.makeParents p).perform fs).2 with e | _
  · rw [hmake] at h
    rw [List.mem_singleton.1 h]
    exact .inl (perform_makeParents p fs)
  rw [hmake, perform_makeParents_of_ok hmake, states_act, List.mem_cons] at h
  rw [perform_makeParents_of_ok hmake]
  simp only [run_act]
  rcases h with rfl | h
  · exact .inl (.inr rfl)
  rcases hwrite : ((FileAction.write p.temporary content).perform (made p fs)).2 with e | _
  · -- What cannot be written cannot be removed either.
    obtain ⟨hfailed, hsame⟩ := settle_error hwrite
    obtain ⟨e', hremove⟩ := Files.remove_of_write_error hfailed
    rw [hwrite, show ((FileAction.write p.temporary content).perform (made p fs)).1 = _ from hsame,
      states_act, FileAction.perform, hremove] at h
    exact .inl (.inr (by simpa [FileAction.perform.settle, states] using h))
  obtain ⟨t, ht, hdirectory, -, hput⟩ := Files.write_eq_ok (settle_eq_ok hwrite)
  have hwritten : Written p content fs _ t := ⟨ht, hdirectory, hput⟩
  rw [hwrite] at h
  rw [states_act, List.mem_cons] at h
  rcases h with rfl | h
  · exact .inr (.inl ⟨t, hwritten⟩)
  rw [states, List.mem_singleton] at h
  rcases hrename : ((FileAction.rename p.temporary p).perform
    ((FileAction.write p.temporary content).perform (made p fs)).1).2 with e | _
  · rw [show s = _ from h.trans (settle_error hrename).2]
    exact .inr (.inl ⟨t, hwritten⟩)
  · exact .inr (.inr ⟨hrename, h⟩)

theorem grown_made (p : Path) (fs : Files) (place : Place) :
    fs.Grown (made p fs) (fs.way p) place :=
  Files.grown_makeDirectories fs _ _ place

theorem tree_made (hfs : fs.Tree) (p : Path) : (made p fs).Tree :=
  hfs.makeDirectories (hfs.start p) _

section

variable {t place : Place} (h : Written p content fs s t)
include h

theorem Written.extends : fs.Extends s := by
  rw [h.eq_put]
  exact (extends_made p fs).trans (Files.extends_put h.ne_directory _)

theorem Written.eq_target : t = fs.target p.temporary :=
  (Files.eq_target_of_locate h.locate).trans ((extends_made p fs).target _)

theorem Written.exists_lastName? (hfs : fs.Tree) : ∃ name, p.lastName? = some name := by
  rcases hname : p.lastName? with _ | name
  · have hlocate := h.locate
    rw [Path.temporary_of_nameless hname] at hlocate
    exact absurd ((tree_made hfs p).locate_of_nameless hname hlocate) h.ne_directory
  · exact ⟨name, rfl⟩

theorem Written.ne_target (hfs : fs.Tree) : t ≠ fs.target p := by
  obtain ⟨name, hname⟩ := h.exists_lastName? hfs
  rw [h.eq_target]
  exact fs.target_temporary_ne hname

theorem Written.grown (hplace : place ≠ t) : fs.Grown s (fs.way p) place := by
  rw [Files.Grown, h.eq_put, Files.item?_put_other hplace]
  exact grown_made p fs place

end

theorem exists_written_of_ok (hfs : fs.Tree) (h : ((replace p content).run fs).2 = .ok ()) :
    ∃ t s, Written p content fs s t ∧ s.Extends ((replace p content).run fs).1 ∧
      ((replace p content).run fs).1.item? (fs.target p) = some (.file content) ∧
      ((replace p content).run fs).1.item? t = none ∧
      ∀ place, place ≠ fs.target p → place ≠ t →
        ((replace p content).run fs).1.item? place = s.item? place := by
  obtain ⟨t, u, ht, hdirectory, hu, htarget, -, heq⟩ := run_replace_of_ok h
  have hwritten : Written p content fs _ t := ⟨ht, hdirectory, rfl⟩
  obtain rfl : u = fs.target p := (Files.eq_target_of_locate hu).trans (hwritten.extends.target p)
  have hne := hwritten.ne_target hfs
  obtain ⟨herase, htarget'⟩ := erased hdirectory htarget
  refine ⟨t, _, hwritten, ?_, ?_, ?_, fun place hplace hplace' => ?_⟩
  · rw [heq]
    exact herase.trans (Files.extends_put htarget' _)
  · rw [heq, Files.item?_put_self (Files.ne_top_of_item? htarget')]
  · rw [heq, Files.item?_put_other hne, Files.item?_erase_self (Files.ne_top_of_item? hdirectory)]
  · rw [heq, Files.item?_put_other hplace, Files.item?_erase_other hplace']

theorem grown_of_mem_states_replace (hfs : fs.Tree) (h : s ∈ (replace p content).states fs) :
    fs.Grown s (fs.way p) (fs.target p) ∨
      ((replace p content).run fs).2 = .ok () ∧ s.item? (fs.target p) = some (.file content) := by
  rcases cases_of_mem_states_replace h with (rfl | rfl) | ⟨t, hwritten⟩ | ⟨hok, rfl⟩
  · exact .inl (.refl s _ _)
  · exact .inl (grown_made p fs _)
  · exact .inl (hwritten.grown (hwritten.ne_target hfs).symm)
  · obtain ⟨_, _, -, -, hcontent, -⟩ := exists_written_of_ok hfs hok
    exact .inr ⟨hok, hcontent⟩

theorem item?_of_mem_states_replace (hfs : fs.Tree) (hok : ((replace p content).run fs).2 = .ok ())
    (h : s ∈ (replace p content).states fs) :
    s.item? (fs.target p) = fs.item? (fs.target p) ∨ s.item? (fs.target p) = some (.file content) := by
  obtain ⟨_, _, -, -, hcontent, -⟩ := exists_written_of_ok hfs hok
  refine (grown_of_mem_states_replace hfs h).imp (fun hgrown => ?_) And.right
  refine hgrown.eq_of_ne_directory fun hdirectory => ?_
  rw [(extends_of_mem_states h).2.directories _ hdirectory] at hcontent
  cases hcontent

theorem probe_temporary_replace (hfs : fs.Tree) (hok : ((replace p content).run fs).2 = .ok ()) :
    ((replace p content).run fs).1.probe p.temporary = .ok false := by
  obtain ⟨t, s, hwritten, hextends, -, habsent, -⟩ := exists_written_of_ok hfs hok
  have hput := Files.extends_put hwritten.ne_directory (.file content)
  rw [← hwritten.eq_put] at hput
  rw [Files.probe, hextends.locate (hput.locate hwritten.locate)]
  simp only [habsent, Option.isSome_none]

theorem grown_replace (hfs : fs.Tree) (hok : ((replace p content).run fs).2 = .ok ()) {place : Place}
    (hplace : place ≠ fs.target p) (htemporary : place ≠ fs.target p.temporary) :
    fs.Grown ((replace p content).run fs).1 (fs.way p) place := by
  obtain ⟨t, s, hwritten, -, -, -, hother⟩ := exists_written_of_ok hfs hok
  rw [← hwritten.eq_target] at htemporary
  rw [Files.Grown, hother place hplace htemporary]
  exact hwritten.grown htemporary

theorem read_other_of_mem_states_replace {q : Path} {found : ByteArray} {name temporary other : Name}
    (h : s ∈ (replace p content).states fs) (hq : fs.read q = .ok found)
    (hname : p.steps.getLast? = some (.into name))
    (htemporary : p.temporary.steps.getLast? = some (.into temporary))
    (hother : q.steps.getLast? = some (.into other)) (hne : other ≠ name) (hne' : other ≠ temporary) :
    s.read q = .ok found := by
  obtain ⟨place, hplace, hitem, hplain⟩ := Files.read_eq_ok_iff.1 hq
  have hnames := Files.locate_names hother hplace
  have hmade : (made p fs).item? place = some (.file found) := Files.item?_makeDirectories hitem _ _
  -- The place of a file ends in its name, so the three files have places of their own.
  have hbeside {t : Place} (ht : (made p fs).locate p.temporary = .ok t) : place ≠ t := by
    rintro rfl
    exact hne' (Option.some.inj (hnames.symm.trans (Files.locate_names htemporary ht)))
  refine Files.read_eq_ok_iff.2 ⟨place, (extends_of_mem_states h).1.locate hplace, ?_, hplain⟩
  rcases cases_of_mem_states_replace h with (rfl | rfl) | ⟨t, hwritten⟩ | ⟨hok, rfl⟩
  · exact hitem
  · exact hmade
  · rwa [hwritten.eq_put, Files.item?_put_other (hbeside hwritten.locate)]
  · obtain ⟨t, u, ht, -, hu, -, -, heq⟩ := run_replace_of_ok hok
    have hu' : place ≠ u := by
      rintro rfl
      exact hne (Option.some.inj (hnames.symm.trans (Files.locate_names hname hu)))
    rwa [heq, Files.item?_put_other hu', Files.item?_erase_other (hbeside ht),
      Files.item?_put_other (hbeside ht)]

end FilePlan

end AddressLookup
