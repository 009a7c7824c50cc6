import AddressLookup.Cache.Storage
import AddressLookup.Proofs.Cache.Document
import AddressLookup.Proofs.Files.Replace
import AddressLookup.Proofs.Text.Lossy

/-! Saving a cache and opening its file again. What is read back are the entries that had not expired
when the cache was saved, each as its document is read from its own text; a document nested too deep for
the file spoils the whole file. -/

namespace AddressLookup

namespace Cache

def Holds (kind : Json → Prop) (c : Cache) : Prop :=
  ∀ e ∈ c.entries.entries, kind e.2.data

instance {kind : Json → Prop} [DecidablePred kind] (c : Cache) : Decidable (Holds kind c) :=
  inferInstanceAs (Decidable (∀ e ∈ c.entries.entries, kind e.2.data))

section

variable {kind : Json → Prop} {c : Cache}

theorem holds_empty (path : Option Path) (lifetime : Option Lifetime) :
    Holds kind ⟨path, lifetime, ∅⟩ := fun _ h => absurd h List.not_mem_nil

theorem Holds.set (h : c.Holds kind) {data : Json} (hdata : kind data) (key : String) (now : Instant) :
    (c.set key data now).Holds kind := by
  intro e he
  rcases KeyMap.eq_or_mem_of_mem_insertEntry he with rfl | he
  · exact hdata
  · exact h e he

theorem Holds.purge (h : c.Holds kind) (now : Instant) : (c.purge now).Holds kind :=
  fun e he => h e (List.mem_filter.1 he).1

theorem Holds.mono {kind' : Json → Prop} (hkind : ∀ v, kind v → kind' v) (h : c.Holds kind) :
    c.Holds kind' :=
  fun e he => hkind e.2.data (h e he)

end

theorem savePlan_purge {c : Cache} {path : Path} (hpath : c.path = some path) (now : Instant) :
    (c.purge now).savePlan = .replace path (documentText (c.purge now).entries).toUTF8 := by
  rw [savePlan, show (c.purge now).path = some path from hpath]

theorem files_save {c : Cache} {path : Path} (hpath : c.path = some path) (now : Instant) (fs : Files) :
    (c.save now fs).files =
      ((FilePlan.replace path (documentText (c.purge now).entries).toUTF8).run fs).1 := by
  rw [← savePlan_purge hpath]
  rfl

theorem outcome_save {c : Cache} {path : Path} (hpath : c.path = some path) (now : Instant) (fs : Files) :
    (c.save now fs).outcome =
      ((FilePlan.replace path (documentText (c.purge now).entries).toUTF8).run fs).2.mapError .file := by
  rw [← savePlan_purge hpath]
  rfl

theorem run_replace_of_save {c : Cache} {path : Path} (hpath : c.path = some path) {now : Instant}
    {fs : Files} (hsave : (c.save now fs).outcome = .ok ()) :
    ((FilePlan.replace path (documentText (c.purge now).entries).toUTF8).run fs).2 = .ok () ∧
      (c.save now fs).files =
        ((FilePlan.replace path (documentText (c.purge now).entries).toUTF8).run fs).1 := by
  refine ⟨?_, files_save hpath now fs⟩
  rw [outcome_save hpath] at hsave
  revert hsave
  cases ((FilePlan.replace path (documentText (c.purge now).entries).toUTF8).run fs).2 with
  | error e => exact fun h => absurd h (by simp [Except.mapError])
  | ok _ => exact fun _ => rfl

theorem readText_of_read {fs : Files} {path : Path} {text : String}
    (h : fs.read path = .ok text.toUTF8) : fs.readText path = .ok text := by
  refine bind_eq_ok_iff.2 ⟨_, h, ?_⟩
  rw [fromUTF8?_toUTF8]

theorem eq_of_openFile {fs : Files} {path : Path} {lifetime : Option Lifetime} {c : Cache}
    (h : openFile fs path lifetime = .ok c) : c = ⟨some path, lifetime, c.entries⟩ := by
  unfold openFile at h
  split at h
  · rw [← Except.ok.inj h]
  · cases h
  · split at h
    · cases h
    · rw [← Except.ok.inj h]

theorem openFile_of_document {fs : Files} {path : Path} {c : Cache}
    (hread : fs.read path = .ok (documentText c.entries).toUTF8)
    (hdata : c.Holds (Json.Regular JsonNumber.Legible)) (lifetime : Option Lifetime) :
    openFile fs path lifetime =
      if ∀ e ∈ c.entries.entries, Shallow e.2.data then
        .ok ⟨some path, lifetime, c.entries.mapValues Entry.reread⟩
      else .error (.badCache path) := by
  simp only [openFile, readText_of_read hread, parseDocument_documentText hdata]
  by_cases hshallow : ∀ e ∈ c.entries.entries, Shallow e.2.data
  · rw [if_pos hshallow, if_pos hshallow]
  · rw [if_neg hshallow, if_neg hshallow]

theorem read_save {c : Cache} {path : Path} (hpath : c.path = some path) {now : Instant} {fs : Files}
    (hsave : (c.save now fs).outcome = .ok ()) :
    (c.save now fs).files.read path = .ok (documentText (c.purge now).entries).toUTF8 := by
  obtain ⟨hrun, hfiles⟩ := run_replace_of_save hpath hsave
  rw [hfiles]
  exact FilePlan.read_replace hrun

/-- Documents that come back from a file as they are. -/
def Faithful (data : Json) : Prop :=
  data.Regular JsonNumber.Integral ∧ Shallow data

theorem Faithful.reread_eq {e : Entry} (h : Faithful e.data) : e.reread = e := by
  rw [Entry.reread, h.1.reread_eq]

theorem openFile_of_faithful {fs : Files} {path : Path} {c : Cache}
    (hread : fs.read path = .ok (documentText c.entries).toUTF8) (hdata : c.Holds Faithful)
    (lifetime : Option Lifetime) : openFile fs path lifetime = .ok ⟨some path, lifetime, c.entries⟩ := by
  have hlegible : c.Holds (Json.Regular JsonNumber.Legible) :=
    hdata.mono fun _ hdata => hdata.1.mono fun _ => JsonNumber.Integral.legible
  rw [openFile_of_document hread hlegible, if_pos fun e he => (hdata e he).2,
    KeyMap.mapValues_eq_self fun e he => (hdata e he).reread_eq]

/-- The caches in a file that come of an empty one by storing documents and purging. -/
inductive Stored (path : Path) (lifetime : Option Lifetime) : Cache → Prop
  | empty : Stored path lifetime ⟨some path, lifetime, ∅⟩
  | set {c : Cache} (h : Stored path lifetime c) (key : String) {data : Json} (hdata : Faithful data)
      (now : Instant) : Stored path lifetime (c.set key data now)
  | purge {c : Cache} (h : Stored path lifetime c) (now : Instant) :
      Stored path lifetime (c.purge now)

section

variable {path : Path} {lifetime : Option Lifetime} {c : Cache}

theorem Stored.path_eq (h : Stored path lifetime c) : c.path = some path := by
  induction h with
  | empty => rfl
  | set _ _ _ _ ih => exact ih
  | purge _ _ ih => exact ih

theorem Stored.holds (h : Stored path lifetime c) : c.Holds Faithful := by
  induction h with
  | empty => exact holds_empty _ _
  | set _ key hdata now ih => exact ih.set hdata key now
  | purge _ now ih => exact ih.purge now

/-- What was saved is opened again as it was, under whatever lifetime: every entry that had not expired,
its document the same and its expiry the same to the nanosecond. -/
theorem openFile_save_of_stored (h : Stored path lifetime c) {now : Instant} {fs : Files}
    (hsave : (c.save now fs).outcome = .ok ()) (lifetime' : Option Lifetime) :
    openFile (c.save now fs).files path lifetime' =
      .ok ⟨some path, lifetime', c.entries.filter fun _ e => !e.isExpired now⟩ := by
  -- Every document fits the file and reads as itself, so the file gives back the purged entries.
  exact openFile_of_faithful (read_save h.path_eq hsave) (h.holds.purge now) lifetime'

/-- The ends of the integers and no document at all, under a key of characters that are escaped, until
a leap second that is out by a nanosecond. -/
theorem openFile_save_of_stored_extremes :
    let path := Path.ofString "c.json"
    let t : Instant := ⟨59, 1000000001, by decide, by decide⟩
    let data : Json := .array
      [.number (.integer (-0x8000000000000000)), .null, .number (.integer 0xFFFFFFFFFFFFFFFF)]
    let c := (Cache.mk (some path) (some ⟨1⟩) ∅).set "\x00\"" data t
    (c.save t ⟨[], .top⟩).outcome = .ok () ∧
      openFile (c.save t ⟨[], .top⟩).files path none =
        .ok ⟨some path, none, c.entries.filter fun _ e => !e.isExpired t⟩ := by
  intro path t data c
  have hdata : Faithful data := by
    refine ⟨.array fun v hv => ?_, by decide⟩
    simp only [List.mem_cons, List.not_mem_nil, or_false] at hv
    rcases hv with rfl | rfl | rfl
    · exact .number ⟨by decide, by decide⟩
    · exact .null
    · exact .number ⟨by decide, by decide⟩
  have hstored : Stored path (some ⟨1⟩) c := .set .empty _ hdata t
  have hsave : (c.save t ⟨[], .top⟩).outcome = .ok () := by decide +kernel
  exact ⟨hsave, openFile_save_of_stored hstored hsave none⟩

end

end Cache

end AddressLookup
