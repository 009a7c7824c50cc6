import AddressLookup.Proofs.Files.Beside

/-! What paths are made of. Two spellings with the same components are the same path; the temporary path of a
file has the components of the file but for the last, which is its name with the suffix added. -/

namespace AddressLookup

namespace Path

inductive Component where
  | root
  | here
  | up
  | name (name : Name)
  deriving DecidableEq, Repr

def Step.component : Step → Component
  | .up => .up
  | .into name => .name name

def startsHere (p : Path) : Bool :=
  p.bytes.takeWhile (· ≠ slash) = [dot]

/-- Where a path starts, if that is said, and its steps. Dots further on and repeated slashes say nothing. -/
def components (p : Path) : List Component :=
  (if p.isAbsolute then [.root] else if p.startsHere then [.here] else []) ++ p.steps.map Step.component

section

variable {p q : Path} {before : List UInt8} {name other : Name} {directory : List Component}

theorem EndsIn.startsHere_eq (h : p.EndsIn before name) : p.startsHere = (Path.mk before).startsHere := by
  obtain ⟨ending, hbytes, hending⟩ := h.exists_bytes
  rcases h.isOpen with rfl | ⟨more, rfl⟩
  · -- The first segment is the name itself, and that is no dot.
    have hname : ∀ b ∈ name, decide (b ≠ slash) = true := fun b hb =>
      decide_eq_true fun heq => h.plain.slash_not_mem (heq ▸ hb)
    have hnone : ending.takeWhile (· ≠ slash) = [] := by
      rcases hending with rfl | hending
      · rfl
      · obtain ⟨rest, rfl⟩ := List.head?_eq_some_iff.1 hending
        rfl
    rw [startsHere, startsHere, hbytes, List.nil_append, List.takeWhile_append_of_pos hname, hnone,
      List.append_nil]
    exact decide_eq_false h.plain.ne_dot
  · have htake (rest : List UInt8) :
        (more ++ [slash] ++ rest).takeWhile (· ≠ slash) = (more ++ [slash]).takeWhile (· ≠ slash) := by
      rw [List.append_assoc, List.singleton_append]
      simp only [List.takeWhile_append, List.takeWhile_cons, ne_eq, not_true_eq_false, decide_false,
        Bool.false_eq_true, if_false]
    rw [startsHere, startsHere, hbytes, List.append_assoc, htake]

theorem EndsIn.components_eq (h : p.EndsIn before name) :
    p.components = (Path.mk before).components ++ [.name name] := by
  rw [components, components, h.isAbsolute_eq, h.startsHere_eq, h.steps_eq, List.map_append, List.append_assoc]
  rfl

theorem lastName?_of_components (h : p.components = directory ++ [.name name]) : p.lastName? = some name := by
  have hlast : p.components.getLast? = some (.name name) := by rw [h, List.getLast?_concat]
  rw [lastName?]
  rcases List.eq_nil_or_concat p.steps with hnil | ⟨steps, step, hsteps⟩
  · -- Where a path starts is no name.
    rw [components, hnil, List.map_nil, List.append_nil] at hlast
    repeat' split at hlast
    all_goals cases hlast
  · rw [List.concat_eq_append] at hsteps
    rw [components, hsteps, List.map_append, List.map_singleton, ← List.append_assoc,
      List.getLast?_concat] at hlast
    rw [hsteps, List.getLast?_concat]
    cases step with
    | up => cases hlast
    | into name => rw [Component.name.inj (Option.some.inj hlast)]

theorem exists_endsIn_of_components (h : p.components = directory ++ [.name name]) :
    ∃ before, p.EndsIn before name ∧ (Path.mk before).components = directory := by
  obtain ⟨before, hends⟩ := exists_endsIn (lastName?_of_components h)
  exact ⟨before, hends, List.append_inj_left' (hends.components_eq.symm.trans h) rfl⟩

theorem components_temporary (h : p.components = directory ++ [.name name]) :
    p.temporary.components = directory ++ [.name (name ++ temporarySuffix)] := by
  obtain ⟨before, hends, hdirectory⟩ := exists_endsIn_of_components h
  rw [hends.temporary.components_eq, hdirectory]

theorem parent_temporary (h : p.lastName? = some name) : p.temporary.parent = p.parent := by
  obtain ⟨before, hends⟩ := exists_endsIn h
  exact hends.temporary.parent_congr hends

theorem components_join (p : Path) (h : Plain name) :
    (p.join ⟨name⟩).components = (Path.mk p.opened).components ++ [.name name] :=
  (p.endsIn_join h).components_eq

end

end Path

namespace Files

theorem target_join (fs : Files) (p : Path) {name : Name} (h : Path.Plain name) :
    fs.target (p.join ⟨name⟩) = (fs.target p).into name := by
  rw [fs.target_of_endsIn (p.endsIn_join h), target, target, start, start, p.steps_opened, p.isAbsolute_opened]

end Files

end AddressLookup
