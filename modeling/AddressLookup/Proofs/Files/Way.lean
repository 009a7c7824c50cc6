import AddressLookup.Proofs.Files.Tree

/-! Where paths lead. There are no links, so the steps of a path alone fix the place that it means; which
directories exist decides only whether one can go there. Making the directories on the way changes nothing
but places on the way where nothing was. -/

namespace AddressLookup

def Place.after (place : Place) : Path.Step → Place
  | .up => place.around
  | .into name => place.into name

@[simp]
theorem Place.around_into (place : Place) (name : Name) : (place.into name).around = place := rfl

namespace Files

def target (fs : Files) (p : Path) : Place :=
  p.steps.foldl Place.after (fs.start p)

/-- The places on the way of a path, from where it starts to the directory that its last step is made from. -/
def way (fs : Files) (p : Path) : List Place :=
  p.steps.dropLast.scanl Place.after (fs.start p)

section

variable {fs : Files} {place last : Place} {p : Path}

theorem eq_after_of_enter {step : Path.Step} (h : fs.enter place step = .ok last) :
    last = place.after step := by
  cases step with
  | up => exact (Except.ok.inj h).symm
  | into name =>
    obtain ⟨_, -, hitem⟩ := bind_eq_ok_iff.1 h
    split at hitem
    · exact (Except.ok.inj hitem).symm
    · cases hitem
    · cases hitem

theorem eq_foldl_of_walk {steps : List Path.Step} (h : fs.walk place steps = .ok last) :
    last = steps.foldl Place.after place := by
  induction steps generalizing place with
  | nil => exact (Except.ok.inj h).symm
  | cons step steps ih =>
    obtain ⟨next, henter, hnext⟩ := bind_eq_ok_iff.1 h
    rw [ih hnext, eq_after_of_enter henter, List.foldl_cons]

theorem target_of_steps {steps : List Path.Step} {step : Path.Step} (h : p.steps = steps ++ [step]) :
    fs.target p = (steps.foldl Place.after (fs.start p)).after step := by
  rw [target, h, List.foldl_append]
  rfl

theorem eq_target_of_locate (h : fs.locate p = .ok place) : place = fs.target p := by
  obtain ⟨_, -, hrest⟩ := bind_eq_ok_iff.1 h
  obtain ⟨directory, hwalk, hlast⟩ := bind_eq_ok_iff.1 hrest
  have hdirectory := eq_foldl_of_walk hwalk
  rcases List.eq_nil_or_concat p.steps with hnil | ⟨steps, step, hsteps⟩
  · rw [hnil] at hlast hdirectory
    rw [target, hnil, ← Except.ok.inj hlast, hdirectory]
    rfl
  · rw [List.concat_eq_append] at hsteps
    rw [hsteps, List.dropLast_concat] at hdirectory
    rw [hsteps, List.getLast?_concat] at hlast
    rw [target_of_steps hsteps, ← hdirectory]
    cases step with
    | up => exact (Except.ok.inj hlast).symm
    | into name =>
      obtain ⟨_, -, hplace⟩ := bind_eq_ok_iff.1 hlast
      exact (Except.ok.inj hplace).symm

end

theorem Extends.target {fs fs' : Files} (h : fs.Extends fs') (p : Path) : fs'.target p = fs.target p := by
  rw [Files.target, Files.target, start, start, h.workingDirectory]

/-- Everything lies in a directory, and the working directory is one. -/
structure Tree (fs : Files) : Prop where
  workingDirectory : fs.item? fs.workingDirectory = some .directory
  around : ∀ place item, fs.item? place = some item → fs.item? place.around = some .directory

theorem tree_empty : Tree ⟨[], .top⟩ := by
  refine ⟨item?_top _, fun place item hitem => ?_⟩
  rw [item?] at hitem
  split at hitem
  · next htop =>
    subst htop
    exact item?_top _
  · cases hitem

section

variable {fs : Files} {place last : Place} {item : Item}

theorem Tree.start (h : fs.Tree) (p : Path) : fs.item? (fs.start p) = some .directory := by
  rw [Files.start]
  split
  · exact item?_top fs
  · exact h.workingDirectory

theorem Tree.enter (h : fs.Tree) (hplace : fs.item? place = some .directory) {step : Path.Step}
    (henter : fs.enter place step = .ok last) : fs.item? last = some .directory := by
  cases step with
  | up =>
    obtain rfl := Except.ok.inj henter
    exact h.around place _ hplace
  | into name =>
    obtain ⟨_, -, hitem⟩ := bind_eq_ok_iff.1 henter
    split at hitem
    · next hdirectory =>
      obtain rfl := Except.ok.inj hitem
      exact hdirectory
    · cases hitem
    · cases hitem

theorem Tree.walk (h : fs.Tree) (hplace : fs.item? place = some .directory) {steps : List Path.Step}
    (hwalk : fs.walk place steps = .ok last) : fs.item? last = some .directory := by
  induction steps generalizing place with
  | nil =>
    obtain rfl := Except.ok.inj hwalk
    exact hplace
  | cons step steps ih =>
    obtain ⟨next, henter, hnext⟩ := bind_eq_ok_iff.1 hwalk
    exact ih (h.enter hplace henter) hnext

theorem Tree.locate_of_nameless (h : fs.Tree) {p : Path} (hname : p.lastName? = none)
    (hlocate : fs.locate p = .ok place) : fs.item? place = some .directory := by
  obtain ⟨_, -, hrest⟩ := bind_eq_ok_iff.1 hlocate
  obtain ⟨directory, hwalk, hlast⟩ := bind_eq_ok_iff.1 hrest
  have hdirectory := h.walk (h.start p) hwalk
  rw [Path.lastName?] at hname
  split at hlast
  · obtain rfl := Except.ok.inj hlast
    exact hdirectory
  · obtain rfl := Except.ok.inj hlast
    exact h.around directory _ hdirectory
  · next name hsteps =>
    rw [hsteps] at hname
    cases hname

theorem Tree.put (h : fs.Tree) (haround : fs.item? place.around = some .directory)
    (hplace : fs.item? place ≠ some .directory) (item : Item) : (fs.put place item).Tree := by
  have hother {other : Place} (hitem : fs.item? other = some .directory) :
      (fs.put place item).item? other = some .directory := by
    rwa [item?_put_other]
    rintro rfl
    exact hplace hitem
  refine ⟨hother h.workingDirectory, fun q found hfound => ?_⟩
  by_cases hq : q = place
  · rw [hq]
    exact hother haround
  · rw [item?_put_other hq] at hfound
    exact hother (h.around q found hfound)

theorem Tree.makeDirectories (h : fs.Tree) (hplace : fs.item? place = some .directory)
    (steps : List Path.Step) : (fs.makeDirectories place steps).1.Tree := by
  induction steps generalizing fs place with
  | nil => exact h
  | cons step steps ih =>
    cases step with
    | up => exact ih h (h.around place _ hplace)
    | into name =>
      unfold Files.makeDirectories
      split
      · exact h
      split
      · next hdirectory => exact ih h hdirectory
      · exact h
      · next hnone =>
        have hnot : fs.item? (place.into name) ≠ some .directory := by simp [hnone]
        have hmade := item?_put_self (ne_top_of_item? hnot) fs .directory
        exact ih (h.put (by simpa using hplace) hnot .directory) hmade

end

/-- What is at a place is what was there, or a directory where nothing was. -/
def Grown (fs fs' : Files) (places : List Place) (place : Place) : Prop :=
  fs'.item? place = fs.item? place ∨
    place ∈ places ∧ fs.item? place = none ∧ fs'.item? place = some .directory

theorem Grown.refl (fs : Files) (places : List Place) (place : Place) : Grown fs fs places place :=
  .inl rfl

theorem Grown.eq_of_ne_directory {fs fs' : Files} {place : Place} {places : List Place}
    (h : Grown fs fs' places place) (hne : fs'.item? place ≠ some .directory) : fs'.item? place = fs.item? place :=
  h.resolve_right fun hmade => hne hmade.2.2

theorem Grown.mono {fs fs' : Files} {places more : List Place} {place : Place}
    (h : Grown fs fs' places place) (hsub : ∀ q ∈ places, q ∈ more) : Grown fs fs' more place :=
  h.imp_right fun h => ⟨hsub place h.1, h.2⟩

theorem mem_scanl_start (place : Place) (steps : List Path.Step) :
    place ∈ steps.scanl Place.after place := by
  cases steps <;> simp

theorem grown_makeDirectories (fs : Files) (place : Place) (steps : List Path.Step) (other : Place) :
    Grown fs (fs.makeDirectories place steps).1 (steps.scanl Place.after place) other := by
  induction steps generalizing fs place with
  | nil => exact .inl rfl
  | cons step steps ih =>
    have hsub : ∀ q ∈ steps.scanl Place.after (place.after step),
        q ∈ (step :: steps).scanl Place.after place := by
      intro q hq
      rw [List.scanl_cons]
      exact List.mem_cons_of_mem _ hq
    cases step with
    | up => exact (ih fs place.around).mono hsub
    | into name =>
      unfold makeDirectories
      split
      · exact .inl rfl
      split
      · exact (ih fs (place.into name)).mono hsub
      · exact .inl rfl
      · next hnone =>
        have hmade := (ih (fs.put (place.into name) .directory) (place.into name)).mono hsub
        by_cases hother : other = place.into name
        · -- This is the place where the first of the directories was made.
          subst hother
          have hnot : fs.item? (place.into name) ≠ some .directory := by simp [hnone]
          have hdirectory := item?_put_self (ne_top_of_item? hnot) fs .directory
          refine .inr ⟨hsub _ (mem_scanl_start _ _), hnone, ?_⟩
          rcases hmade with hsame | ⟨-, habsent, -⟩
          · exact hsame.trans hdirectory
          · rw [hdirectory] at habsent
            cases habsent
        · rwa [Grown, item?_put_other hother] at hmade

end Files

end AddressLookup
