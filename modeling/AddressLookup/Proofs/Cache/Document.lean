import AddressLookup.Cache.Document
import AddressLookup.Proofs.Instant.Text
import AddressLookup.Proofs.Json.Value

/-! The file of a cache, read back. It is a cache document exactly when every document in it is nested
two levels less deep than a text may be, since the file puts each into the object of its entry and that
one into the object of the cache; expiries come back to the nanosecond. -/

namespace AddressLookup.Cache

open Json

def Entry.reread (e : Entry) : Entry :=
  { e with data := e.data.reread }

def Shallow (data : Json) : Prop :=
  data.nesting ≤ dataDepth

instance (data : Json) : Decidable (Shallow data) :=
  inferInstanceAs (Decidable (data.nesting ≤ dataDepth))

theorem Entry.readExpiry_expiryJson (e : Entry) :
    ReadsAs readExpiry e.expiryJson.compactChars (some e.expires) := by
  intro rest _
  unfold Entry.expiryJson
  cases e.expires with
  | none => rfl
  | some t =>
    show readExpiry (Quoted.write t.text ++ rest) = some (some t, rest)
    rw [Quoted.write_eq_cons]
    simp only [readExpiry, skipSpace_cons (c := '"') rfl, Quoted.read_escapeAll, Instant.parse_text,
      Option.map_some]

theorem readPart_memberText (name : String) (text rest : List Char) :
    readPart (memberText name text ++ rest) =
      if name = "expires_at" then (readExpiry (text ++ rest)).map fun (e, rest) => (.expires e, rest)
      else if name = "data" then (readValue dataDepth (text ++ rest)).map fun (v, rest) => (.data v, rest)
      else (skipValue ((text ++ rest).length + 1) (text ++ rest)).map fun (_, rest) => (.other, rest) := by
  have happend : memberText name text ++ rest = Quoted.write name ++ ':' :: (text ++ rest) := by
    simp [memberText]
  rw [happend, readPart, readName_write]

theorem ignoresSpace_readPart : IgnoresSpace readPart := by
  intro s
  rw [readPart, readPart, ignoresSpace_readName]

theorem Entry.readPart_expiry (e : Entry) :
    ReadsAs readPart (memberText "expires_at" e.expiryJson.compactChars) (some (.expires e.expires)) := by
  intro rest hrest
  rw [readPart_memberText, if_pos rfl, e.readExpiry_expiryJson rest hrest]
  rfl

theorem readValue_data {data : Json} (h : Regular JsonNumber.Legible data) :
    ReadsAs (readValue dataDepth) data.compactChars (if Shallow data then some data.reread else none) :=
  readValue_compactChars h dataDepth

theorem Entry.readPart_data {e : Entry} (h : Regular JsonNumber.Legible e.data) :
    ReadsAs readPart (memberText "data" e.data.compactChars)
      (if Shallow e.data then some (.data e.data.reread) else none) := by
  intro rest hrest
  rw [readPart_memberText, if_neg (by decide), if_pos rfl, readValue_data h rest hrest]
  split <;> rfl

def Entry.parts (e : Entry) : List (List Char × Option Part) :=
  [(memberText "expires_at" e.expiryJson.compactChars, some (.expires e.expires)),
    (memberText "data" e.data.compactChars,
      if Shallow e.data then some (.data e.data.reread) else none)]

theorem Entry.readParts {e : Entry} (h : Regular JsonNumber.Legible e.data) (rest : List Char) :
    readSequence readPart '\x7d' (Text.joinWith [','] (e.parts.map (·.1)) ++ '\x7d' :: rest) =
      (e.parts.mapM Prod.snd).map (·, rest) := by
  have hopen : ∀ part ∈ e.parts, OpensBefore '\x7d' part.1 := by
    simp only [Entry.parts, List.forall_mem_cons]
    exact ⟨memberText_opensBefore (.inr rfl) _ _, memberText_opensBefore (.inr rfl) _ _, by simp⟩
  have hread : ∀ part ∈ e.parts, ReadsAs readPart part.1 part.2 := by
    simp only [Entry.parts, List.forall_mem_cons]
    exact ⟨e.readPart_expiry, Entry.readPart_data h, by simp⟩
  exact readSequence_join (.inr rfl) gap_nil ignoresSpace_readPart hopen
    (fun part hpart => (hread part hpart).upToSpace) rest

theorem Entry.readEntry_toJson {e : Entry} (h : Regular JsonNumber.Legible e.data) :
    ReadsAs readEntry e.toJson.compactChars
      (if Shallow e.data then some e.reread else none) := by
  intro rest _
  have hchars : e.toJson.compactChars ++ rest =
      '\x7b' :: (Text.joinWith [','] (e.parts.map (·.1)) ++ '\x7d' :: rest) := by
    rw [Entry.toJson, compactChars, compactMembers_eq_join]
    simp [Entry.parts]
  rw [hchars]
  simp only [readEntry, skipSpace_cons (c := '\x7b') rfl, Entry.readParts h]
  by_cases hfits : Shallow e.data
  · simp only [Entry.parts, if_pos hfits]
    rfl
  · simp only [Entry.parts, if_neg hfits]
    rfl

theorem memberText_toJson_reads {entries : KeyMap Entry}
    (h : ∀ e ∈ entries.entries, Regular JsonNumber.Legible e.2.data) :
    ∀ e ∈ entries.entries, ReadsUpToSpace (readMember readEntry) (memberText e.1 e.2.toJson.compactChars)
      (if Shallow e.2.data then some (e.1, e.2.reread) else none) := by
  intro e he
  have hread := readMember_memberText (Entry.readEntry_toJson (h e he)).upToSpace e.1
  rwa [apply_ite (Option.map (e.1, ·))] at hread

theorem documentText_toList (entries : KeyMap Entry) :
    (documentText entries).toList = '\x7b' ::
      (Text.joinWith [','] (entries.entries.map fun e => memberText e.1 e.2.toJson.compactChars) ++
        ['\x7d']) := by
  rw [documentText, compact, String.toList_ofList, document, compactChars, compactMembers_eq_join,
    List.map_map]
  rfl

/-- A cache document is read back whole or, if a document in it is nested too deep, not at all. -/
theorem parseDocument_documentText {entries : KeyMap Entry}
    (h : ∀ e ∈ entries.entries, Regular JsonNumber.Legible e.2.data) :
    parseDocument (documentText entries) =
      if ∀ e ∈ entries.entries, Shallow e.2.data then
        some (entries.mapValues Entry.reread)
      else none := by
  have hread := readSequence_join (.inr rfl) gap_nil (ignoresSpace_readMember readEntry)
    (fun e _ => memberText_opensBefore (.inr rfl) e.1 e.2.toJson.compactChars)
    (memberText_toJson_reads h) []
  rw [mapM_ite, List.nil_append] at hread
  rw [parseDocument, documentText_toList, parseDocumentChars]
  simp only [skipSpace_cons (c := '\x7b') rfl, hread]
  by_cases hfits : ∀ e ∈ entries.entries, Shallow e.2.data
  · have hsorted : (entries.entries.map fun e => (e.1, e.2.reread)).Pairwise (fun a b => a.1 < b.1) :=
      entries.sorted.map _ fun _ _ hlt => hlt
    rw [if_pos hfits, if_pos hfits]
    show some (KeyMap.ofList _) = _
    rw [ofList_of_sorted hsorted]
    rfl
  · rw [if_neg hfits, if_neg hfits]
    rfl

end AddressLookup.Cache
