import AddressLookup.Files.Tree

/-! What an operation on files does, and what it leaves alone. No operation takes a directory away, so a
path that leads somewhere goes on leading there; an item changes only at the places that are written. -/

namespace AddressLookup

theorem bind_eq_ok_iff {ε α β : Type} {x : Except ε α} {f : α → Except ε β} {b : β} :
    (x >>= f) = .ok b ↔ ∃ a, x = .ok a ∧ f a = .ok b := by
  cases x with
  | error e => exact ⟨fun h => absurd h (by simp [bind, Except.bind]), fun ⟨_, h, _⟩ => absurd h (by simp)⟩
  | ok a =>
    constructor
    · intro h
      exact ⟨a, rfl, h⟩
    · rintro ⟨a', ha, h⟩
      obtain rfl := Except.ok.inj ha
      exact h

theorem map_eq_ok_iff {ε α β : Type} {x : Except ε α} {f : α → β} {b : β} :
    x.map f = .ok b ↔ ∃ a, x = .ok a ∧ f a = b := by
  cases x <;> simp [Except.map]

namespace Files

theorem item?_top (fs : Files) : fs.item? .top = some .directory := by
  rw [item?, if_pos rfl]

theorem ne_top_of_item? {fs : Files} {place : Place} (h : fs.item? place ≠ some .directory) :
    place ≠ .top := by
  rintro rfl
  exact h (item?_top fs)

theorem lookup_filter_other {place other : Place} (hne : other ≠ place) (items : List (Place × Item)) :
    (items.filter fun e => e.1 ≠ place).lookup other = items.lookup other := by
  induction items with
  | nil => rfl
  | cons e items ih =>
    obtain ⟨key, item⟩ := e
    by_cases hkey : key = place
    · subst hkey
      rw [List.filter_cons_of_neg (by simp), ih, List.lookup_cons, beq_false_of_ne hne]
    · rw [List.filter_cons_of_pos (by simpa using hkey), List.lookup_cons, List.lookup_cons, ih]

theorem item?_put_self {place : Place} (hplace : place ≠ .top) (fs : Files) (item : Item) :
    (fs.put place item).item? place = some item := by
  rw [item?, if_neg hplace, put]
  simp

theorem item?_put_other {place other : Place} (hne : other ≠ place) (fs : Files) (item : Item) :
    (fs.put place item).item? other = fs.item? other := by
  unfold item?
  split
  · rfl
  · rw [put, List.lookup_cons, beq_false_of_ne hne]
    exact lookup_filter_other hne fs.items

theorem item?_erase_other {place other : Place} (hne : other ≠ place) (fs : Files) :
    (fs.erase place).item? other = fs.item? other := by
  unfold item?
  split
  · rfl
  · exact lookup_filter_other hne fs.items

theorem item?_erase_self {place : Place} (hplace : place ≠ .top) (fs : Files) :
    (fs.erase place).item? place = none := by
  rw [item?, if_neg hplace, erase, List.lookup_eq_none_iff]
  intro e he
  have hne : e.1 ≠ place := of_decide_eq_true (List.mem_filter.1 he).2
  exact bne_iff_ne.2 hne.symm

theorem item?_erase_ne_directory {fs : Files} {other : Place} (h : fs.item? other ≠ some .directory)
    (place : Place) : (fs.erase place).item? other ≠ some .directory := by
  by_cases hsame : other = place
  · subst hsame
    rw [item?_erase_self (ne_top_of_item? h)]
    simp
  · rwa [item?_erase_other hsame]

structure Extends (fs fs' : Files) : Prop where
  workingDirectory : fs'.workingDirectory = fs.workingDirectory
  directories : ∀ place, fs.item? place = some .directory → fs'.item? place = some .directory

theorem Extends.refl (fs : Files) : Extends fs fs :=
  ⟨rfl, fun _ h => h⟩

theorem Extends.trans {fs fs' fs'' : Files} (h : Extends fs fs') (h' : Extends fs' fs'') :
    Extends fs fs'' :=
  ⟨h'.workingDirectory.trans h.workingDirectory, fun place hp => h'.directories place (h.directories place hp)⟩

theorem extends_put {fs : Files} {place : Place} (h : fs.item? place ≠ some .directory) (item : Item) :
    Extends fs (fs.put place item) := by
  refine ⟨rfl, fun other hother => ?_⟩
  have hne : other ≠ place := by
    rintro rfl
    exact h hother
  rw [item?_put_other hne]
  exact hother

theorem extends_erase {fs : Files} {place : Place} (h : fs.item? place ≠ some .directory) :
    Extends fs (fs.erase place) := by
  refine ⟨rfl, fun other hother => ?_⟩
  have hne : other ≠ place := by
    rintro rfl
    exact h hother
  rw [item?_erase_other hne]
  exact hother

theorem Extends.enter {fs fs' : Files} (h : Extends fs fs') {place target : Place} {step : Path.Step}
    (henter : fs.enter place step = .ok target) : fs'.enter place step = .ok target := by
  cases step with
  | up => exact henter
  | into name =>
    obtain ⟨_, hname, hitem⟩ := bind_eq_ok_iff.1 henter
    refine bind_eq_ok_iff.2 ⟨_, hname, ?_⟩
    split at hitem
    · next hdirectory => rw [h.directories _ hdirectory, hitem]
    · exact absurd hitem (by simp)
    · exact absurd hitem (by simp)

theorem Extends.walk {fs fs' : Files} (h : Extends fs fs') {place target : Place}
    {steps : List Path.Step} (hwalk : fs.walk place steps = .ok target) :
    fs'.walk place steps = .ok target := by
  induction steps generalizing place with
  | nil => exact hwalk
  | cons step steps ih =>
    obtain ⟨next, henter, hnext⟩ := bind_eq_ok_iff.1 hwalk
    exact bind_eq_ok_iff.2 ⟨next, h.enter henter, ih hnext⟩

theorem Extends.locate {fs fs' : Files} (h : Extends fs fs') {p : Path} {place : Place}
    (hlocate : fs.locate p = .ok place) : fs'.locate p = .ok place := by
  obtain ⟨_, hpath, hrest⟩ := bind_eq_ok_iff.1 hlocate
  obtain ⟨directory, hwalk, hlast⟩ := bind_eq_ok_iff.1 hrest
  have hstart : fs'.start p = fs.start p := by rw [start, start, h.workingDirectory]
  refine bind_eq_ok_iff.2 ⟨_, hpath, bind_eq_ok_iff.2 ⟨directory, ?_, hlast⟩⟩
  rw [hstart]
  exact h.walk hwalk

theorem extends_makeDirectories (fs : Files) (place : Place) (steps : List Path.Step) :
    Extends fs (fs.makeDirectories place steps).1 := by
  induction steps generalizing fs place with
  | nil => exact Extends.refl fs
  | cons step steps ih =>
    cases step with
    | up => exact ih fs place.around
    | into name =>
      unfold makeDirectories
      split
      · exact Extends.refl fs
      split
      · exact ih fs _
      · exact Extends.refl fs
      · next hnone => exact (extends_put (by simp [hnone]) .directory).trans (ih _ _)

theorem makeDirectories_of_walk {fs : Files} {place last : Place} {steps : List Path.Step}
    (h : fs.walk place steps = .ok last) : fs.makeDirectories place steps = (fs, .ok ()) := by
  induction steps generalizing place with
  | nil => rfl
  | cons step steps ih =>
    obtain ⟨next, henter, hnext⟩ := bind_eq_ok_iff.1 h
    cases step with
    | up =>
      obtain rfl := Except.ok.inj henter
      exact ih hnext
    | into name =>
      obtain ⟨_, hname, hitem⟩ := bind_eq_ok_iff.1 henter
      split at hitem
      · next hdirectory =>
        obtain rfl := Except.ok.inj hitem
        simp only [makeDirectories, hname, hdirectory]
        exact ih hnext
      · cases hitem
      · cases hitem

theorem item?_makeDirectories {fs : Files} {other : Place} {item : Item}
    (hitem : fs.item? other = some item) (place : Place) (steps : List Path.Step) :
    (fs.makeDirectories place steps).1.item? other = some item := by
  induction steps generalizing fs place with
  | nil => exact hitem
  | cons step steps ih =>
    cases step with
    | up => exact ih hitem place.around
    | into name =>
      unfold makeDirectories
      split
      · exact hitem
      split
      · exact ih hitem _
      · exact hitem
      · next hnone =>
        refine ih ?_ _
        rwa [item?_put_other]
        rintro rfl
        rw [hnone] at hitem
        exact absurd hitem (by simp)

theorem read_eq_ok_iff {fs : Files} {p : Path} {content : ByteArray} :
    fs.read p = .ok content ↔
      ∃ place, fs.locate p = .ok place ∧ fs.item? place = some (.file content) ∧
        p.needsDirectory = false := by
  rw [read, bind_eq_ok_iff]
  refine exists_congr fun place => and_congr_right fun _ => ?_
  split
  · next h => simp [h]
  · next h => simp [h]
  · next found h =>
    rw [h]
    cases p.needsDirectory with
    | true => simp
    | false => simp

theorem ne_directory_of_read {fs : Files} {p : Path} {content : ByteArray} {place : Place}
    (hread : fs.read p = .ok content) (hlocate : fs.locate p = .ok place) :
    fs.item? place ≠ some .directory := by
  obtain ⟨found, hfound, hitem, -⟩ := read_eq_ok_iff.1 hread
  obtain rfl := Except.ok.inj (hlocate.symm.trans hfound)
  simp [hitem]

theorem write_eq_ok {fs fs' : Files} {p : Path} {content : ByteArray}
    (h : fs.write p content = .ok fs') :
    ∃ place, fs.locate p = .ok place ∧ fs.item? place ≠ some .directory ∧ p.needsDirectory = false ∧
      fs' = fs.put place (.file content) := by
  obtain ⟨place, hlocate, hput⟩ := bind_eq_ok_iff.1 h
  refine ⟨place, hlocate, ?_⟩
  split at hput
  · exact absurd hput (by simp)
  · next hitem =>
    split at hput
    · exact absurd hput (by simp)
    · next hneeds =>
      exact ⟨by simp [hitem], Bool.eq_false_iff.2 hneeds, (Except.ok.inj hput).symm⟩
  · next hitem =>
    split at hput
    · exact absurd hput (by simp)
    · next hneeds =>
      exact ⟨by simp [hitem], Bool.eq_false_iff.2 hneeds, (Except.ok.inj hput).symm⟩

theorem remove_eq_ok {fs fs' : Files} {p : Path} (h : fs.remove p = .ok fs') :
    ∃ place, fs.locate p = .ok place ∧ fs.item? place ≠ some .directory ∧ fs' = fs.erase place := by
  obtain ⟨place, hlocate, h⟩ := bind_eq_ok_iff.1 h
  refine ⟨place, hlocate, ?_⟩
  split at h
  · cases h
  · cases h
  · next hitem =>
    split at h
    · cases h
    · exact ⟨by simp [hitem], (Except.ok.inj h).symm⟩

theorem remove_of_write_error {fs : Files} {p : Path} {content : ByteArray} {e : FileError} (h : fs.write p content = .error e) :
    ∃ e', fs.remove p = .error e' := by
  unfold write at h
  unfold remove
  rcases hlocate : fs.locate p with e' | place
  · exact ⟨e', rfl⟩
  · simp only [hlocate, bind, Except.bind] at h ⊢
    split
    · exact ⟨_, rfl⟩
    · exact ⟨_, rfl⟩
    · next hfile =>
      rw [hfile] at h
      split
      · exact ⟨_, rfl⟩
      · next hneeds => exact absurd h (by simp [hneeds])

theorem rename_eq_ok {fs fs' : Files} {p q : Path} (h : fs.rename p q = .ok fs') :
    ∃ content source target, fs.read p = .ok content ∧ fs.locate p = .ok source ∧
      fs.locate q = .ok target ∧ fs.item? target ≠ some .directory ∧ q.needsDirectory = false ∧
      fs' = (fs.erase source).put target (.file content) := by
  obtain ⟨content, hread, h⟩ := bind_eq_ok_iff.1 h
  obtain ⟨source, hsource, h⟩ := bind_eq_ok_iff.1 h
  obtain ⟨target, htarget, h⟩ := bind_eq_ok_iff.1 h
  refine ⟨content, source, target, hread, hsource, htarget, ?_⟩
  split at h
  · exact absurd h (by simp)
  · next hitem =>
    split at h
    · exact absurd h (by simp)
    · next hneeds => exact ⟨hitem, Bool.eq_false_iff.2 hneeds, (Except.ok.inj h).symm⟩

theorem write_of_free {fs : Files} {p : Path} {place : Place} (hlocate : fs.locate p = .ok place)
    (hfree : fs.item? place ≠ some .directory) (hneeds : p.needsDirectory = false) (content : ByteArray) :
    fs.write p content = .ok (fs.put place (.file content)) := by
  refine bind_eq_ok_iff.2 ⟨place, hlocate, ?_⟩
  split
  · next hdirectory => exact absurd hdirectory hfree
  · rw [if_neg (by simp [hneeds])]
  · rw [if_neg (by simp [hneeds])]

theorem rename_of_free {fs : Files} {p q : Path} {content : ByteArray} {source target : Place}
    (hread : fs.read p = .ok content) (hsource : fs.locate p = .ok source)
    (htarget : fs.locate q = .ok target) (hfree : fs.item? target ≠ some .directory)
    (hneeds : q.needsDirectory = false) :
    fs.rename p q = .ok ((fs.erase source).put target (.file content)) := by
  refine bind_eq_ok_iff.2 ⟨_, hread, bind_eq_ok_iff.2 ⟨_, hsource, bind_eq_ok_iff.2 ⟨_, htarget, ?_⟩⟩⟩
  split
  · next hdirectory => exact absurd hdirectory hfree
  · rw [if_neg (by simp [hneeds])]

end Files

end AddressLookup
