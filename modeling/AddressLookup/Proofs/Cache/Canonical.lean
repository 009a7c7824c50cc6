import AddressLookup.Proofs.Cache.History
import AddressLookup.Proofs.Cache.Storage
import AddressLookup.Proofs.Json.Alike

/-! The bytes of a cache file. They are settled by what is in the cache, key by key: neither the order nor the
number of the writes shows in them, nor the order in which the documents listed their members. A cache that is
opened from its file and saved before anything more has expired leaves the file as it is. -/

namespace AddressLookup.Cache

open Json

namespace Event

def Stores (kind : Json → Prop) : Event → Prop
  | set _ data _ => kind data
  | purge _ => True

def leave (lifetime : Option Lifetime) (key : String) (found : Option Entry) : Event → Option Entry
  | set k data now => if k = key then some ⟨lifetime.bind now.add?, data⟩ else found
  | purge now => found.filter fun e => !e.isExpired now

end Event

/-- What a history leaves under a key of a cache, each key looked at by itself. -/
def left? (c : Cache) (history : List Event) (key : String) : Option Entry :=
  history.foldl (Event.leave c.lifetime key) (c.entries.get? key)

structure Entry.Alike (e e' : Entry) : Prop where
  expires : e.expires = e'.expires
  data : e.data.Alike e'.data

theorem left?_concat (c : Cache) (history : List Event) (event : Event) (key : String) :
    c.left? (history ++ [event]) key = event.leave c.lifetime key (c.left? history key) := by
  rw [left?, List.foldl_append]
  rfl

theorem get?_replay_eq_left? (c : Cache) (history : List Event) (key : String) :
    (c.replay history).entries.get? key = c.left? history key := by
  induction history using List.reverseRecOn with
  | nil => rfl
  | append_singleton history event ih =>
    rw [replay_concat, left?_concat, ← ih]
    cases event with
    | set k data now =>
      rw [Event.perform, set, KeyMap.get?_insert, expiryAt, lifetime_replay, Event.leave]
      simp only [eq_comm]
    | purge now => exact KeyMap.get?_filter _ _ key

theorem Holds.replay {kind : Json → Prop} {c : Cache} (hc : c.Holds kind) {history : List Event}
    (h : ∀ event ∈ history, event.Stores kind) : (c.replay history).Holds kind := by
  induction history using List.reverseRecOn with
  | nil => exact hc
  | append_singleton history event ih =>
    have hkept := ih fun e he => h e (List.mem_append_left _ he)
    have hevent := h event (List.mem_append_right _ (List.mem_singleton_self event))
    rw [replay_concat]
    cases event with
    | set key data now => exact hkept.set hevent key now
    | purge now => exact hkept.purge now

theorem entries_eq_of_alike {c c' : Cache} (hc : c.Holds Ordered) (hc' : c'.Holds Ordered)
    (hsame : ∀ key, Option.Rel Entry.Alike (c.entries.get? key) (c'.entries.get? key)) :
    c.entries = c'.entries := by
  refine KeyMap.ext_get? fun key => ?_
  have halike := hsame key
  generalize hfound : c.entries.get? key = found at halike
  generalize hfound' : c'.entries.get? key = found' at halike
  cases halike with
  | none => rfl
  | @some e e' halike =>
    have hordered : Ordered e.data := hc _ (KeyMap.mem_of_lookup hfound)
    have hordered' : Ordered e'.data := hc' _ (KeyMap.mem_of_lookup hfound')
    obtain ⟨expires, data⟩ := e
    obtain ⟨expires', data'⟩ := e'
    obtain rfl : expires = expires' := halike.expires
    obtain rfl : data = data' := halike.data.eq hordered hordered'
    rfl

theorem openFile_congr {fs fs' : Files} {path : Path} (h : fs.read path = fs'.read path)
    (lifetime : Option Lifetime) : openFile fs path lifetime = openFile fs' path lifetime := by
  simp only [openFile, Files.readText, h]

theorem purge_of_lasting {c : Cache} {now : Instant}
    (h : ∀ key e, c.entries.get? key = some e → e.isExpired now = false) : c.purge now = c := by
  have hentries : c.entries.entries.filter (fun e => !e.2.isExpired now) = c.entries.entries :=
    List.filter_eq_self.2 fun e he => by simp [h e.1 e.2 (KeyMap.get?_of_mem he)]
  simp only [purge, KeyMap.filter, hentries]

/-- The sort at a save: in whatever order the entries are listed for it, the file holds the same. -/
theorem read_save_of_perm {c : Cache} {path : Path} (hpath : c.path = some path) {now : Instant} {fs : Files}
    (hsave : (c.save now fs).outcome = .ok ()) {listing : List (String × Entry)}
    (h : listing.Perm (c.purge now).entries.entries) :
    (c.save now fs).files.read path = .ok (documentText (KeyMap.ofList listing)).toUTF8 := by
  rw [KeyMap.ofList_of_perm h]
  exact read_save hpath hsave

theorem save_again {c : Cache} {path : Path} (hpath : c.path = some path) {now : Instant} {fs : Files}
    (hsave : (c.save now fs).outcome = .ok ()) (lifetime : Option Lifetime) {later : Instant}
    (hlasting : (c.purge now).purge later = c.purge now) :
    let opened : Cache := ⟨some path, lifetime, (c.purge now).entries⟩
    (∀ files, (opened.save later files).outcome = .ok () →
      (opened.save later files).files.read path = (c.save now fs).files.read path) ∧
      (opened.save later (c.save now fs).files).outcome = .ok () := by
  intro opened
  have hentries : ((c.purge now).purge later).entries = (c.purge now).entries := congrArg Cache.entries hlasting
  change (opened.purge later).entries = (c.purge now).entries at hentries
  obtain ⟨hrun, hfiles⟩ := run_replace_of_save hpath hsave
  constructor
  · intro files hagain
    rw [read_save hpath hsave, read_save rfl hagain, hentries]
  · have hagain := FilePlan.run_replace_again hrun (documentText (opened.purge later).entries).toUTF8
    rw [← hfiles] at hagain
    rw [outcome_save (show opened.path = some path from rfl), hagain]
    rfl

/-- Two histories that leave the same entries under each key are saved as the same bytes, in whatever order and
however often they wrote and purged. If the documents fit a file and come back from it as they are, then the
cache that is opened from the file writes the same bytes again until one of its entries expires, and its save
goes through at least as long as nothing else is done to the files. -/
theorem save_canonical {c c' : Cache} {path path' : Path} (hpath : c.path = some path)
    (hpath' : c'.path = some path') (hc : c.Holds Ordered) (hc' : c'.Holds Ordered)
    {history history' : List Event} (hdata : ∀ event ∈ history, event.Stores Ordered)
    (hdata' : ∀ event ∈ history', event.Stores Ordered)
    (hsame : ∀ key, Option.Rel Entry.Alike (c.left? history key) (c'.left? history' key))
    (now : Instant) (fs fs' : Files) :
    let saved := (c.replay history).save now fs
    let saved' := (c'.replay history').save now fs'
    (∃ bytes, (saved.outcome = .ok () → saved.files.read path = .ok bytes) ∧
      (saved'.outcome = .ok () → saved'.files.read path' = .ok bytes)) ∧
    (path = path' → fs = fs' → saved.outcome = saved'.outcome ∧ saved.files = saved'.files) ∧
    (c.Holds Faithful → (∀ event ∈ history, event.Stores Faithful) → saved.outcome = .ok () → ∀ later,
      (∀ key e, c.left? history key = some e → e.isExpired now = false → e.isExpired later = false) →
      ∀ lifetime, ∃ opened,
        (∀ files, files.read path = saved.files.read path → openFile files path lifetime = .ok opened ∧
          ((opened.save later files).outcome = .ok () →
            (opened.save later files).files.read path = saved.files.read path)) ∧
        (opened.save later saved.files).outcome = .ok ()) := by
  intro saved saved'
  have hpathEnd : (c.replay history).path = some path := (path_replay c history).trans hpath
  have hpathEnd' : (c'.replay history').path = some path' := (path_replay c' history').trans hpath'
  have hsameEnd : (c.replay history).entries = (c'.replay history').entries := by
    refine entries_eq_of_alike (hc.replay hdata) (hc'.replay hdata') fun key => ?_
    rw [get?_replay_eq_left?, get?_replay_eq_left?]
    exact hsame key
  have hentries : ((c.replay history).purge now).entries = ((c'.replay history').purge now).entries :=
    congrArg (fun entries : KeyMap Entry => entries.filter fun _ e => !e.isExpired now) hsameEnd
  refine ⟨⟨(documentText ((c.replay history).purge now).entries).toUTF8, read_save hpathEnd,
    fun hsave => ?_⟩, ?_, ?_⟩
  · rw [hentries]
    exact read_save hpathEnd' hsave
  · rintro rfl rfl
    constructor
    · rw [outcome_save hpathEnd, outcome_save hpathEnd', hentries]
    · rw [files_save hpathEnd, files_save hpathEnd', hentries]
  · intro hfaithful hevents hsave later hlasting lifetime
    have hpurged : ((c.replay history).purge now).purge later = (c.replay history).purge now := by
      refine purge_of_lasting fun key e he => ?_
      rw [purge, KeyMap.get?_filter, Option.filter_eq_some_iff, get?_replay_eq_left?] at he
      exact hlasting key e he.1 (by simpa using he.2)
    obtain ⟨hagain, hok⟩ := save_again hpathEnd hsave lifetime hpurged
    refine ⟨⟨some path, lifetime, ((c.replay history).purge now).entries⟩,
      fun files hfiles => ⟨?_, hagain files⟩, hok⟩
    rw [openFile_congr hfiles]
    exact openFile_of_faithful (read_save hpathEnd hsave) ((hfaithful.replay hevents).purge now) lifetime

/-- A cache that was filled in one go, and one in which a document was replaced and another had expired when it
was purged, are saved as the same bytes in two files; opened a second later and saved, the first is unchanged. -/
theorem save_canonical_rewritten :
    let path := Path.ofString "c.json"
    let path' := Path.ofString "d.json"
    let start : Instant := ⟨0, 0, by decide, by decide⟩
    let t : Instant := ⟨100, 0, by decide, by decide⟩
    let later : Instant := ⟨101, 0, by decide, by decide⟩
    let data : Json := .object
      [("x", .number (.integer (-0x8000000000000000))), ("y", .array [.string "\x00", .object []])]
    let lifetime : Option Lifetime := some ⟨5000000000⟩
    let history := [Event.set "a" .null t, .set "b" data t]
    let history' := [Event.set "c" data start, .set "b" data t, .set "a" data t, .purge t, .set "a" .null t]
    let c : Cache := ⟨some path, lifetime, ∅⟩
    let c' : Cache := ⟨some path', lifetime, ∅⟩
    let saved := (c.replay history).save t ⟨[], .top⟩
    let saved' := (c'.replay history').save t ⟨[], .top⟩
    saved.outcome = .ok () ∧ saved'.outcome = .ok () ∧
      saved.files.read path = saved'.files.read path' ∧
      ∃ opened, openFile saved.files path none = .ok opened ∧
        (opened.save later saved.files).outcome = .ok () ∧
        (opened.save later saved.files).files.read path = saved.files.read path := by
  intro path path' start t later data lifetime history history' c c' saved saved'
  have hregular : data.Regular JsonNumber.Integral := by
    refine .object (by decide) fun m hm => ?_
    simp only [List.mem_cons, List.not_mem_nil, or_false] at hm
    rcases hm with rfl | rfl
    · exact .number ⟨by decide, by decide⟩
    · refine .array fun v hv => ?_
      simp only [List.mem_cons, List.not_mem_nil, or_false] at hv
      rcases hv with rfl | rfl
      · exact .string _
      · exact .object .nil fun m hm => absurd hm List.not_mem_nil
  have hnull : Faithful .null := ⟨.null, by decide⟩
  have hdata : Faithful data := ⟨hregular, by decide⟩
  have hfaithful : ∀ event ∈ history, event.Stores Faithful := by
    simp [history, Event.Stores, hnull, hdata]
  have hordered : ∀ event ∈ history, event.Stores Ordered := by
    simp [history, Event.Stores, hnull.1.ordered, hregular.ordered]
  have hordered' : ∀ event ∈ history', event.Stores Ordered := by
    simp [history', Event.Stores, hnull.1.ordered, hregular.ordered]
  have hkept : (Entry.mk (lifetime.bind t.add?) data).isExpired t = false := by decide +kernel
  have hgone : (Entry.mk (lifetime.bind start.add?) data).isExpired t = true := by decide +kernel
  have hsame : ∀ key, Option.Rel Entry.Alike (c.left? history key) (c'.left? history' key) := by
    have halike : Entry.Alike ⟨lifetime.bind t.add?, data⟩ ⟨lifetime.bind t.add?, data⟩ :=
      ⟨rfl, hregular.alike_self⟩
    have halikeNull : Entry.Alike ⟨lifetime.bind t.add?, .null⟩ ⟨lifetime.bind t.add?, .null⟩ := ⟨rfl, .null⟩
    intro key
    change Option.Rel Entry.Alike (history.foldl (Event.leave lifetime key) none)
      (history'.foldl (Event.leave lifetime key) none)
    by_cases ha : "a" = key
    · subst ha
      simp [history, history', Event.leave, halikeNull]
    · by_cases hb : "b" = key
      · subst hb
        simp [history, history', Event.leave, Option.filter_some, hkept, halike]
      · by_cases hc : "c" = key
        · subst hc
          simp [history, history', Event.leave, Option.filter_some, hgone]
        · simp [history, history', Event.leave, ha, hb, hc]
  have hlasting : ∀ key e, c.left? history key = some e → e.isExpired later = false := by
    intro key e he
    change history.foldl (Event.leave lifetime key) none = some e at he
    simp only [history, List.foldl, Event.leave] at he
    have hexpires : e.expires = lifetime.bind t.add? := by
      split at he
      · rw [← Option.some.inj he]
      · split at he
        · rw [← Option.some.inj he]
        · cases he
    rw [Entry.isExpired, hexpires]
    decide +kernel
  have hok : saved.outcome = .ok () := by decide +kernel
  have hok' : saved'.outcome = .ok () := by decide +kernel
  obtain ⟨⟨bytes, hread, hread'⟩, -, hreopen⟩ :=
    save_canonical (show c.path = some path from rfl) (show c'.path = some path' from rfl) (holds_empty _ _)
      (holds_empty _ _) hordered hordered' hsame t ⟨[], .top⟩ ⟨[], .top⟩
  obtain ⟨opened, hopened, hsave⟩ := hreopen (holds_empty _ _) hfaithful hok later
    (fun key e he _ => hlasting key e he) none
  obtain ⟨hopen, hagain⟩ := hopened saved.files rfl
  exact ⟨hok, hok', (hread hok).trans (hread' hok').symm, opened, hopen, hsave, hagain hsave⟩

end AddressLookup.Cache
