import AddressLookup.Proofs.Files.Stranding

/-! Replacing two files of one directory. What the first replacement does, with success or not, is nothing to
the second: that comes to what it would have come to alone, and leaves the first file as it is. -/

namespace AddressLookup

namespace Files

/-- Files with the same directories, and the same items at the places that are known. -/
structure Agree (known : Place → Prop) (fs fs' : Files) : Prop where
  workingDirectory : fs'.workingDirectory = fs.workingDirectory
  directory : ∀ place, fs'.item? place = some .directory ↔ fs.item? place = some .directory
  item?_eq : ∀ place, known place → fs'.item? place = fs.item? place

def Alike (known : Place → Prop) (x y : Except FileError Files) : Prop :=
  (∃ e, x = .error e ∧ y = .error e) ∨ ∃ fs fs', x = .ok fs ∧ y = .ok fs' ∧ Agree known fs fs'

theorem Alike.failed (known : Place → Prop) (e : FileError) : Alike known (.error e) (.error e) :=
  .inl ⟨e, rfl, rfl⟩

theorem Agree.alike {known : Place → Prop} {fs fs' : Files} (h : Agree known fs fs') :
    Alike known (.ok fs) (.ok fs') :=
  .inr ⟨fs, fs', rfl, rfl, h⟩

def Passable (fs : Files) (p : Path) : Prop :=
  ∃ directory, fs.walk (fs.start p) p.steps.dropLast = .ok directory

/-- A place of neither the file that a path leads to nor of the temporary file beside it. -/
def Aside (fs : Files) (p : Path) (place : Place) : Prop :=
  place ≠ fs.target p ∧ place ≠ fs.target p.temporary

section

variable {known : Place → Prop} {fs fs' s s' : Files} {p q : Path} {place : Place}

theorem Agree.extends (h : Agree known fs fs') : fs.Extends fs' :=
  ⟨h.workingDirectory, fun place => (h.directory place).2⟩

theorem Agree.refl (known : Place → Prop) (fs : Files) : Agree known fs fs :=
  ⟨rfl, fun _ => Iff.rfl, fun _ _ => rfl⟩

theorem Agree.trans (h : Agree known fs fs') (h' : Agree known fs' s) : Agree known fs s :=
  ⟨h'.workingDirectory.trans h.workingDirectory, fun place => (h'.directory place).trans (h.directory place),
    fun place hplace => (h'.item?_eq place hplace).trans (h.item?_eq place hplace)⟩

theorem Agree.mono {less : Place → Prop} (h : Agree known fs fs') (hless : ∀ place, less place → known place) :
    Agree less fs fs' :=
  ⟨h.workingDirectory, h.directory, fun place hplace => h.item?_eq place (hless place hplace)⟩

theorem agree_of_change (hdirectory : s.workingDirectory = fs.workingDirectory)
    (hother : ∀ other, other ≠ place → s.item? other = fs.item? other)
    (hbefore : fs.item? place ≠ some .directory) (hafter : s.item? place ≠ some .directory) :
    Agree (· ≠ place) fs s := by
  refine ⟨hdirectory, fun other => ?_, hother⟩
  by_cases hsame : other = place
  · rw [hsame]
    exact iff_of_false hafter hbefore
  · rw [hother other hsame]

theorem agree_put (h : fs.item? place ≠ some .directory) (content : ByteArray) :
    Agree (· ≠ place) fs (fs.put place (.file content)) := by
  refine agree_of_change rfl (fun other hother => item?_put_other hother fs _) h ?_
  rw [item?_put_self (ne_top_of_item? h)]
  simp

theorem agree_erase (h : fs.item? place ≠ some .directory) : Agree (· ≠ place) fs (fs.erase place) := by
  refine agree_of_change rfl (fun other hother => item?_erase_other hother fs) h ?_
  rw [item?_erase_self (ne_top_of_item? h)]
  simp

theorem Agree.change (h : Agree known fs fs') (hs : Agree (· ≠ place) fs s) (hs' : Agree (· ≠ place) fs' s')
    (hplace : s'.item? place = s.item? place) : Agree known s s' := by
  refine ⟨?_, fun other => ?_, fun other hother => ?_⟩
  · rw [hs.workingDirectory, hs'.workingDirectory, h.workingDirectory]
  · rw [hs.directory, hs'.directory, h.directory]
  · by_cases hsame : other = place
    · rw [hsame, hplace]
    · rw [hs.item?_eq other hsame, hs'.item?_eq other hsame, h.item?_eq other hother]

theorem Agree.ne_directory (h : Agree known fs fs') (hplace : fs.item? place ≠ some .directory) :
    fs'.item? place ≠ some .directory :=
  fun hdirectory => hplace ((h.directory place).1 hdirectory)

theorem Agree.put (h : Agree known fs fs') (hplace : fs.item? place ≠ some .directory) (content : ByteArray) :
    Agree known (fs.put place (.file content)) (fs'.put place (.file content)) := by
  have htop := ne_top_of_item? hplace
  refine h.change (agree_put hplace content) (agree_put (h.ne_directory hplace) content) ?_
  rw [item?_put_self htop, item?_put_self htop]

theorem Agree.erase (h : Agree known fs fs') (hplace : fs.item? place ≠ some .directory) :
    Agree known (fs.erase place) (fs'.erase place) := by
  have htop := ne_top_of_item? hplace
  refine h.change (agree_erase hplace) (agree_erase (h.ne_directory hplace)) ?_
  rw [item?_erase_self htop, item?_erase_self htop]

theorem Passable.extends (h : fs.Passable p) (hextends : fs.Extends fs') : fs'.Passable p := by
  obtain ⟨directory, hwalk⟩ := h
  refine ⟨directory, ?_⟩
  rw [start, hextends.workingDirectory]
  exact hextends.walk hwalk

theorem Passable.temporary (h : fs.Passable p) : fs.Passable p.temporary := by
  rcases hname : p.lastName? with _ | name
  · rwa [Path.temporary_of_nameless hname]
  · obtain ⟨steps, hsteps, htemporary⟩ := Path.exists_steps_temporary hname
    obtain ⟨directory, hwalk⟩ := h
    rw [hsteps, List.dropLast_concat] at hwalk
    exact ⟨directory, by rwa [start_temporary, htemporary, List.dropLast_concat]⟩

section

variable (h : Agree known fs fs') (hp : fs.Passable p)
include h hp

theorem Agree.locate : fs'.locate p = fs.locate p := by
  obtain ⟨directory, hwalk⟩ := hp
  have hstart : fs'.start p = fs.start p := by rw [start, start, h.workingDirectory]
  unfold Files.locate
  rw [hstart, hwalk, h.extends.walk hwalk]

theorem Agree.read (hknown : known (fs.target p)) : fs'.read p = fs.read p := by
  unfold Files.read
  rw [h.locate hp]
  rcases hlocate : fs.locate p with e | place
  · rfl
  · rw [← eq_target_of_locate hlocate] at hknown
    simp only [bind, Except.bind, h.item?_eq place hknown]

theorem Agree.write (hknown : known (fs.target p)) (content : ByteArray) :
    Alike known (fs.write p content) (fs'.write p content) := by
  unfold Files.write
  rw [h.locate hp]
  rcases hlocate : fs.locate p with e | place
  · exact .failed known e
  · rw [← eq_target_of_locate hlocate] at hknown
    simp only [bind, Except.bind, h.item?_eq place hknown]
    split
    · exact .failed known _
    · next hfile =>
      split
      · exact .failed known _
      · exact (h.put (by simp [hfile]) content).alike
    · next hnone =>
      split
      · exact .failed known _
      · exact (h.put (by simp [hnone]) content).alike

theorem Agree.rename (hq : fs.Passable q) (hknown : known (fs.target p)) (hknown' : known (fs.target q)) :
    Alike known (fs.rename p q) (fs'.rename p q) := by
  unfold Files.rename
  rw [h.read hp hknown, h.locate hp, h.locate hq]
  rcases hread : fs.read p with e | content
  · exact .failed known e
  rcases hsource : fs.locate p with e | source
  · exact .failed known e
  rcases htarget : fs.locate q with e | target
  · exact .failed known e
  rw [← eq_target_of_locate htarget] at hknown'
  simp only [bind, Except.bind, h.item?_eq target hknown']
  split
  · exact .failed known _
  · next hfree =>
    split
    · exact .failed known _
    · have herase := h.erase (ne_directory_of_read hread hsource)
      exact (herase.put (item?_erase_ne_directory hfree source) content).alike

end

theorem makeDirectories_of_directory {name : Name} (hname : checkName name = .ok ())
    (h : fs.item? (place.into name) = some .directory) (steps : List Path.Step) :
    fs.makeDirectories place (.into name :: steps) = fs.makeDirectories (place.into name) steps := by
  simp only [makeDirectories, hname, h]

theorem makeDirectories_cases (fs : Files) (place : Place) (name : Name) (steps : List Path.Step) :
    (∃ e, fs.makeDirectories place (.into name :: steps) = (fs, .error e)) ∨
      checkName name = .ok () ∧ ∃ s : Files, s.item? (place.into name) = some .directory ∧
        fs.makeDirectories place (.into name :: steps) = s.makeDirectories (place.into name) steps := by
  rcases hname : checkName name with e | _
  · exact .inl ⟨e, by simp only [makeDirectories, hname]⟩
  rcases hitem : fs.item? (place.into name) with _ | (content | _)
  · have hnot : fs.item? (place.into name) ≠ some .directory := by simp [hitem]
    refine .inr ⟨rfl, fs.put (place.into name) .directory, item?_put_self (ne_top_of_item? hnot) fs _, ?_⟩
    simp only [makeDirectories, hname, hitem]
  · exact .inl ⟨.notDirectory, by simp only [makeDirectories, hname, hitem]⟩
  · exact .inr ⟨rfl, fs, hitem, makeDirectories_of_directory hname hitem steps⟩

theorem makeDirectories_again (fs : Files) (place : Place) (steps : List Path.Step) :
    (fs.makeDirectories place steps).1.makeDirectories place steps = fs.makeDirectories place steps := by
  induction steps generalizing fs place with
  | nil => rfl
  | cons step steps ih =>
    cases step with
    | up => exact ih fs place.around
    | into name =>
      rcases makeDirectories_cases fs place name steps with ⟨e, hstopped⟩ | ⟨hname, s, hitem, hmade⟩
      · rw [hstopped, hstopped]
      · have hthere := item?_makeDirectories hitem (place.into name) steps
        rw [hmade, makeDirectories_of_directory hname hthere, ih]

theorem exists_walk_makeDirectories {steps : List Path.Step} (h : (fs.makeDirectories place steps).2 = .ok ()) :
    ∃ last, (fs.makeDirectories place steps).1.walk place steps = .ok last := by
  induction steps generalizing fs place with
  | nil => exact ⟨place, rfl⟩
  | cons step steps ih =>
    cases step with
    | up => exact ih h
    | into name =>
      rcases makeDirectories_cases fs place name steps with ⟨e, hstopped⟩ | ⟨hname, s, hitem, hmade⟩
      · rw [hstopped] at h
        cases h
      · rw [hmade] at h ⊢
        obtain ⟨last, hlast⟩ := ih h
        have henter : (s.makeDirectories (place.into name) steps).1.enter place (.into name) =
            .ok (place.into name) := by
          refine bind_eq_ok_iff.2 ⟨_, hname, ?_⟩
          rw [item?_makeDirectories hitem]
        exact ⟨last, bind_eq_ok_iff.2 ⟨_, henter, hlast⟩⟩

end

end Files

namespace FilePlan

open Files

section

variable {p q : Path} {fs fs' s : Files} {content : ByteArray} {known : Place → Prop}

theorem perform_makeParents_again (p : Path) (fs : Files) :
    (FileAction.makeParents p).perform (prepared p fs) = (FileAction.makeParents p).perform fs := by
  simp only [prepared, FileAction.perform]
  rcases Files.checkBytes p.parent with e | _
  · rfl
  · have hstart : (fs.makeDirectories (fs.start p) p.steps.dropLast).1.start p = fs.start p := by
      rw [start, start, (extends_makeDirectories fs _ _).workingDirectory]
    simp only [hstart, makeDirectories_again]

theorem run_replace_prepared (p : Path) (content : ByteArray) (fs : Files) :
    (replace p content).run (prepared p fs) = (replace p content).run fs := by
  rw [replace, run_act, run_act, perform_makeParents_again]

theorem passable_made (h : ((FileAction.makeParents p).perform fs).2 = .ok ()) : (made p fs).Passable p := by
  simp only [FileAction.perform] at h
  rcases hbytes : Files.checkBytes p.parent with e | _
  · rw [hbytes] at h
    cases h
  · rw [hbytes] at h
    obtain ⟨last, hwalk⟩ := exists_walk_makeDirectories h
    refine ⟨last, ?_⟩
    rw [start, (extends_made p fs).workingDirectory]
    exact hwalk

theorem perform_makeParents_of_passable (h : fs.Passable p) :
    (FileAction.makeParents p).perform fs = (fs, Files.checkBytes p.parent) := by
  obtain ⟨directory, hwalk⟩ := h
  simp only [FileAction.perform, makeDirectories_of_walk hwalk]
  rcases Files.checkBytes p.parent with e | _
  · rfl
  · rfl

theorem run_replace_of_passable (h : fs.Passable p) (content : ByteArray) :
    (replace p content).run fs =
      match Files.checkBytes p.parent with
      | .error e => (fs, .error e)
      | .ok _ =>
        match fs.write p.temporary content with
        | .error e => (fs, .error e)
        | .ok s => FileAction.perform.settle s (s.rename p.temporary p) := by
  have hmakes := perform_makeParents_of_passable h
  rcases hbytes : Files.checkBytes p.parent with e | _
  · rw [hbytes] at hmakes
    rw [run_replace_of_makes_error (by rw [hmakes]), hmakes]
  rw [hbytes] at hmakes
  have hmade : made p fs = fs := by rw [← perform_makeParents_of_ok (by rw [hmakes]), hmakes]
  rcases hwrite : fs.write p.temporary content with e | s
  · rw [run_replace_of_write_error (by rw [hmakes]) (by rwa [hmade]), hmade]
  · rw [run_replace_of_write_ok (by rw [hmakes]) (by rwa [hmade])]

theorem agree_replace (h : fs.Passable p) (content : ByteArray) :
    Agree (fs.Aside p) fs ((replace p content).run fs).1 := by
  rw [run_replace_of_passable h]
  rcases Files.checkBytes p.parent with e | _
  · exact .refl _ fs
  rcases hwrite : fs.write p.temporary content with e | s
  · exact .refl _ fs
  obtain ⟨t, ht, hfree, -, hs⟩ := write_eq_ok hwrite
  obtain rfl := eq_target_of_locate ht
  have hput : Agree (fs.Aside p) fs s := by
    rw [hs]
    exact (agree_put hfree content).mono fun _ hplace => hplace.2
  simp only []
  rcases hrename : s.rename p.temporary p with e | moved
  · exact hput
  · obtain ⟨found, source, target, hread, hsource, htarget, hover, -, rfl⟩ := rename_eq_ok hrename
    have hfile := ne_directory_of_read hread hsource
    obtain rfl := (eq_target_of_locate hsource).trans (hput.extends.target _)
    obtain rfl := (eq_target_of_locate htarget).trans (hput.extends.target _)
    refine (hput.trans ((agree_erase hfile).mono fun _ hplace => hplace.2)).trans ?_
    exact (agree_put (item?_erase_ne_directory hover _) found).mono fun _ hplace => hplace.1

theorem run_replace_of_agree (h : Agree known fs fs') (hp : fs.Passable p) (hknown : known (fs.target p))
    (htemporary : known (fs.target p.temporary)) (content : ByteArray) :
    ((replace p content).run fs').2 = ((replace p content).run fs).2 ∧
      Agree known ((replace p content).run fs).1 ((replace p content).run fs').1 := by
  rw [run_replace_of_passable hp, run_replace_of_passable (hp.extends h.extends)]
  rcases Files.checkBytes p.parent with e | _
  · exact ⟨rfl, h⟩
  rcases h.write hp.temporary htemporary content with ⟨e, hwrite, hwrite'⟩ | ⟨s, s', hwrite, hwrite', hput⟩
  · simp only [hwrite, hwrite']
    exact ⟨trivial, h⟩
  obtain ⟨t, -, hfree, -, hs⟩ := write_eq_ok hwrite
  have hextends : fs.Extends s := by
    rw [hs]
    exact extends_put hfree _
  simp only [hwrite, hwrite']
  rcases hput.rename (hp.temporary.extends hextends) (hp.extends hextends) (by rwa [hextends.target])
    (by rwa [hextends.target]) with ⟨e, hrename, hrename'⟩ | ⟨moved, moved', hrename, hrename', hmoved⟩
  · rw [hrename, hrename']
    exact ⟨rfl, hput⟩
  · rw [hrename, hrename']
    exact ⟨rfl, hmoved⟩

end

end FilePlan

namespace Path

open Files FilePlan

/-- Two files of one directory, none with the name of the other or of its temporary file. -/
def Apart (p q : Path) : Prop :=
  ∃ before name other, p.EndsIn before name ∧ q.EndsIn before other ∧ other ≠ name ∧
    other ≠ name ++ temporarySuffix ∧ name ≠ other ++ temporarySuffix

section

variable {p q : Path} {fs : Files} (h : Apart p q) (a b : ByteArray)
include h

theorem Apart.perform_makeParents (fs : Files) :
    (FileAction.makeParents q).perform fs = (FileAction.makeParents p).perform fs := by
  obtain ⟨before, name, other, hp, hq, -⟩ := h
  simp only [FileAction.perform, start, hp.parent_congr hq, hp.isAbsolute_eq, hq.isAbsolute_eq, hp.steps_eq,
    hq.steps_eq, List.dropLast_concat]

theorem Apart.passable (hpassable : fs.Passable p) : fs.Passable q := by
  obtain ⟨before, name, other, hp, hq, -⟩ := h
  obtain ⟨directory, hwalk⟩ := hpassable
  refine ⟨directory, ?_⟩
  rw [start, hp.isAbsolute_eq, hp.steps_eq, List.dropLast_concat] at hwalk
  rwa [start, hq.isAbsolute_eq, hq.steps_eq, List.dropLast_concat]

theorem Apart.aside (fs : Files) : fs.Aside p (fs.target q) ∧ fs.Aside p (fs.target q.temporary) ∧
    fs.Aside q (fs.target p) := by
  obtain ⟨before, name, other, hp, hq, hne, htemporary, htemporary'⟩ := h
  have hinto {name other : Name} (hname : name ≠ other) :
      (fs.target ⟨before⟩).into name ≠ (fs.target ⟨before⟩).into other :=
    fun hplace => hname (List.cons.inj (Place.mk.inj hplace).2).1
  simp only [Aside, fs.target_of_endsIn hp, fs.target_of_endsIn hq, fs.target_of_endsIn hp.temporary,
    fs.target_of_endsIn hq.temporary]
  have hcancel : other ++ temporarySuffix ≠ name ++ temporarySuffix := fun hname =>
    hne (List.append_cancel_right hname)
  exact ⟨⟨hinto hne, hinto htemporary⟩, ⟨hinto htemporary'.symm, hinto hcancel⟩, hinto hne.symm, hinto htemporary'⟩

theorem Apart.run_replace_of_passable (hp : fs.Passable p) :
    ((replace q b).run ((replace p a).run fs).1).2 = ((replace q b).run fs).2 ∧
      ((replace q b).run ((replace p a).run fs).1).1.read q = ((replace q b).run fs).1.read q ∧
      ((replace q b).run ((replace p a).run fs).1).1.read p = ((replace p a).run fs).1.read p := by
  have hq := h.passable hp
  obtain ⟨hfile, htemporary, hfile'⟩ := h.aside fs
  have hfirst := agree_replace hp a
  have halone := extends_run (replace q b) fs
  obtain ⟨houtcome, hagree⟩ := run_replace_of_agree hfirst hq hfile htemporary b
  refine ⟨houtcome, hagree.read (hq.extends halone) (by rwa [halone.target]), ?_⟩
  have hboth := agree_replace (hq.extends hfirst.extends) b
  refine hboth.read (hp.extends hfirst.extends) ?_
  simpa only [Aside, hfirst.extends.target] using hfile'

theorem Apart.run_replace (fs : Files) :
    ((replace q b).run ((replace p a).run fs).1).2 = ((replace q b).run fs).2 ∧
      ((replace q b).run ((replace p a).run fs).1).1.read q = ((replace q b).run fs).1.read q ∧
      ((replace q b).run ((replace p a).run fs).1).1.read p = ((replace p a).run fs).1.read p := by
  have hsame : prepared q fs = prepared p fs := by rw [prepared, prepared, h.perform_makeParents]
  rcases hmakes : ((FileAction.makeParents p).perform fs).2 with e | _
  · -- Neither gets any further than the other, and the directories that are made are the same.
    have hfirst : (replace p a).run fs = (prepared p fs, .error e) := run_replace_of_makes_error hmakes
    have halone : (replace q b).run fs = (prepared p fs, .error e) := by
      rw [run_replace_of_makes_error (by rw [h.perform_makeParents, hmakes]), h.perform_makeParents, prepared]
    have hboth : (replace q b).run (prepared p fs) = (prepared p fs, .error e) := by
      rw [← hsame, run_replace_prepared, halone, hsame]
    rw [hfirst, halone, hboth]
    exact ⟨rfl, rfl, rfl⟩
  · rw [← run_replace_prepared p a fs, ← run_replace_prepared q b fs, hsame]
    refine h.run_replace_of_passable a b ?_
    rw [prepared, perform_makeParents_of_ok hmakes]
    exact passable_made hmakes

end

end Path

end AddressLookup
