import AddressLookup.Proofs.Files.Replace
import AddressLookup.Proofs.Files.Way

/-! The temporary path beside a file. It goes the way of the path of the file and then to that file's name
with `.tmp` added, so it means another place of the same directory. -/

namespace AddressLookup

namespace Path

variable {p : Path} {name : Name}

theorem exists_steps_temporary (h : p.lastName? = some name) :
    ∃ steps, p.steps = steps ++ [.into name] ∧
      p.temporary.steps = steps ++ [.into (name ++ temporarySuffix)] := by
  obtain ⟨before, hends⟩ := exists_endsIn h
  exact ⟨_, hends.steps_eq, hends.temporary.steps_eq⟩

theorem isAbsolute_temporary (p : Path) : p.temporary.isAbsolute = p.isAbsolute := by
  rcases hname : p.lastName? with _ | name
  · rw [temporary_of_nameless hname]
  · obtain ⟨before, hends⟩ := exists_endsIn hname
    rw [hends.isAbsolute_eq, hends.temporary.isAbsolute_eq]

end Path

namespace Files

theorem start_temporary (fs : Files) (p : Path) : fs.start p.temporary = fs.start p := by
  rw [start, start, Path.isAbsolute_temporary]

theorem target_of_endsIn (fs : Files) {p : Path} {before : List UInt8} {name : Name} (h : p.EndsIn before name) :
    fs.target p = (fs.target ⟨before⟩).into name := by
  rw [target_of_steps h.steps_eq, start, h.isAbsolute_eq]
  rfl

theorem target_temporary_ne (fs : Files) {p : Path} {name : Name} (h : p.lastName? = some name) :
    fs.target p.temporary ≠ fs.target p := by
  obtain ⟨before, hends⟩ := Path.exists_endsIn h
  rw [fs.target_of_endsIn hends, fs.target_of_endsIn hends.temporary]
  intro heq
  have hname : name ++ Path.temporarySuffix = name := (List.cons.inj (Place.mk.inj heq).2).1
  simp [Path.temporarySuffix] at hname

end Files

end AddressLookup
