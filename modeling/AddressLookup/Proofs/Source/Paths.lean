import AddressLookup.Proofs.Files.Components
import AddressLookup.Source.Remote
import Mathlib.Data.List.Nodup

/-! The files of the caches. The services' files are in one directory, where each of them and the temporary file
beside it has a name of its own. -/

namespace AddressLookup

namespace Service

def fileName (s : Service) : Name :=
  (Path.ofString s.cacheFileName).bytes

def temporaryName (s : Service) : Name :=
  s.fileName ++ Path.temporarySuffix

theorem plain_fileName (s : Service) : Path.Plain s.fileName := by
  cases s <;> decide +kernel

theorem plain_temporaryName (s : Service) : Path.Plain s.temporaryName :=
  s.plain_fileName.append_temporarySuffix

theorem temporary_cacheFile (s : Service) (c : Config) :
    (c.cacheFile s.cacheFileName).temporary = c.cacheDirectory.join ⟨s.temporaryName⟩ :=
  Path.temporary_join c.cacheDirectory s.plain_fileName

theorem fileName_ne {s t : Service} (h : t ≠ s) : t.fileName ≠ s.fileName := by
  cases s <;> cases t <;> first | exact absurd rfl h | decide +kernel

theorem fileName_ne_temporaryName (s t : Service) : t.fileName ≠ s.temporaryName := by
  cases s <;> cases t <;> decide +kernel

end Service

namespace Config

def cacheNames : List Name :=
  [Service.geo, .rdap].flatMap fun s => [s.fileName, s.temporaryName]

def cachePaths (c : Config) : List Path :=
  [Service.geo, .rdap].flatMap fun s => [c.cacheFile s.cacheFileName, (c.cacheFile s.cacheFileName).temporary]

theorem nodup_cacheNames : cacheNames.Nodup := by
  decide +kernel

theorem plain_of_mem_cacheNames {name : Name} (h : name ∈ cacheNames) : Path.Plain name := by
  obtain ⟨s, -, hname⟩ := List.mem_flatMap.1 h
  simp only [List.mem_cons, List.not_mem_nil, or_false] at hname
  rcases hname with rfl | rfl
  · exact s.plain_fileName
  · exact s.plain_temporaryName

theorem cachePaths_eq (c : Config) : c.cachePaths = cacheNames.map fun name => c.cacheDirectory.join ⟨name⟩ := by
  simp only [cachePaths, Service.temporary_cacheFile]
  rfl

theorem nodup_map_cachePaths {α : Type} {f : Path → α} {g : Name → α} (c : Config)
    (hf : ∀ name, Path.Plain name → f (c.cacheDirectory.join ⟨name⟩) = g name) (hg : Function.Injective g) :
    (c.cachePaths.map f).Nodup := by
  have hmap : c.cachePaths.map f = cacheNames.map g := by
    rw [cachePaths_eq, List.map_map]
    exact List.map_congr_left fun name hname => hf name (plain_of_mem_cacheNames hname)
  rw [hmap]
  exact nodup_cacheNames.map hg

end Config

namespace Path

/-- The temporary path of a file, however many dots there are in the file's name and wherever they are, is the path
in the same directory whose name is the file's with `.tmp` added. It is another path than the file's, and files
have the same temporary path only if they are the same. So the two caches and their temporary files have four
paths, which lead to four places. -/
theorem temporary_beside {p q : Path} {directory directory' : List Component} {name name' : Name}
    (hp : p.components = directory ++ [.name name]) (hq : q.components = directory' ++ [.name name'])
    (c : Config) :
    p.temporary.components = directory ++ [.name (name ++ temporarySuffix)] ∧
      p.temporary.parent = p.parent ∧
      p.temporary.components ≠ p.components ∧
      (p.temporary.components = q.temporary.components ↔ p.components = q.components) ∧
      (c.cachePaths.map components).Nodup ∧ ∀ fs : Files, (c.cachePaths.map fs.target).Nodup := by
  have htemporary := components_temporary hp
  refine ⟨htemporary, parent_temporary (lastName?_of_components hp), ?_, ?_, ?_, fun fs => ?_⟩
  · rw [htemporary, hp]
    simp [temporarySuffix]
  · rw [htemporary, components_temporary hq, hp, hq]
    constructor
    · intro h
      obtain ⟨hdirectory, hlast⟩ := List.append_inj' h rfl
      have hname := Component.name.inj (List.cons.inj hlast).1
      rw [hdirectory, List.append_cancel_right hname]
    · intro h
      obtain ⟨hdirectory, hlast⟩ := List.append_inj' h rfl
      rw [hdirectory, Component.name.inj (List.cons.inj hlast).1]
  · refine c.nodup_map_cachePaths (fun name hname => components_join _ hname) fun name name' h => ?_
    exact Component.name.inj (List.cons.inj (List.append_cancel_left h)).1
  · refine c.nodup_map_cachePaths (fun name hname => fs.target_join _ hname) fun name name' h => ?_
    exact (List.cons.inj (Place.mk.inj h).2).1

/-- Two spellings of one path, to a name that both begins and ends with a dot. -/
theorem temporary_beside_dots :
    let p := Path.ofString "./d/.cache."
    let q := Path.ofString "./d//.cache./."
    let directory := [Component.here, .name (Path.ofString "d").bytes]
    let name := (Path.ofString ".cache.").bytes
    p.components = directory ++ [.name name] ∧ q.components = directory ++ [.name name] ∧
      p.temporary.components = directory ++ [.name (name ++ temporarySuffix)] ∧
      p.temporary = .ofString "./d/.cache..tmp" ∧ p.temporary.components = q.temporary.components ∧
      (Config.standard.cachePaths.map components).Nodup := by
  intro p q directory name
  have hp : p.components = directory ++ [.name name] := by decide +kernel
  have hq : q.components = directory ++ [.name name] := by decide +kernel
  obtain ⟨htemporary, -, -, hiff, hpaths, -⟩ := temporary_beside hp hq Config.standard
  exact ⟨hp, hq, htemporary, by decide +kernel, hiff.2 (hp.trans hq.symm), hpaths⟩

end Path

end AddressLookup
