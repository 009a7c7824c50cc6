import AddressLookup.Json.Writer
import AddressLookup.Proofs.Json.Spelling

/-! Reading back what was written over several lines. The line breaks and the indentation are passed over,
so the text of a value reads as it does in one line, at whatever level the value starts. An object that is
written with its members out of order reads as the object that lists them in order. -/

namespace AddressLookup.Json

open Text

theorem gap_newLine (level : Nat) : Gap (newLine level) := by
  intro c hc
  rcases List.mem_cons.1 hc with rfl | hc
  · rfl
  · rw [List.eq_of_mem_replicate hc]
    rfl

theorem gap_space : Gap [' '] := by
  intro c hc
  rw [List.mem_singleton.1 hc]
  rfl

theorem prettyItems_eq_join (level : Nat) (items : List Json) :
    prettyItems level items = joinWith [','] (items.map fun v => newLine level ++ v.prettyChars level) := by
  induction items with
  | nil => rfl
  | cons item items ih =>
    rcases items with _ | ⟨next, items⟩
    · rw [prettyItems, List.map_singleton, joinWith_singleton]
    · rw [prettyItems, ih]
      · simp only [List.map_cons, joinWith_cons_cons]
        simp
      · simp

theorem prettyMembers_eq_join (level : Nat) (members : List (String × Json)) :
    prettyMembers level members = joinWith [','] (members.map fun m =>
      newLine level ++ memberText m.1 ([' '] ++ m.2.prettyChars level)) := by
  induction members with
  | nil => rfl
  | cons member members ih =>
    rcases members with _ | ⟨next, members⟩
    · rw [prettyMembers, List.map_singleton, joinWith_singleton, memberText]
      simp
    · rw [prettyMembers, ih]
      · simp only [List.map_cons, joinWith_cons_cons]
        simp [memberText]
      · simp

theorem head?_prettyChars (v : Json) (level : Nat) : (v.prettyChars level).head? = v.compactChars.head? := by
  cases v with
  | null => rfl
  | bool b => rfl
  | number n => rfl
  | string s => rfl
  | array items => cases items <;> rfl
  | object members => cases members <;> rfl

theorem prettyChars_array (items : List Json) (level : Nat) : ∃ gap, Gap gap ∧
    (array items).prettyChars level = '[' :: (joinWith [','] (items.map fun v =>
      newLine (level + 1) ++ v.prettyChars (level + 1)) ++ (gap ++ [']'])) := by
  rcases items with _ | ⟨item, items⟩
  · exact ⟨[], gap_nil, rfl⟩
  · refine ⟨newLine level, gap_newLine level, ?_⟩
    rw [prettyChars, prettyItems_eq_join]
    · simp
    · simp

theorem prettyChars_object (members : List (String × Json)) (level : Nat) : ∃ gap, Gap gap ∧
    (object members).prettyChars level = '\x7b' :: (joinWith [','] (members.map fun m =>
      newLine (level + 1) ++ memberText m.1 ([' '] ++ m.2.prettyChars (level + 1))) ++ (gap ++ ['\x7d'])) := by
  rcases members with _ | ⟨member, members⟩
  · exact ⟨[], gap_nil, rfl⟩
  · refine ⟨newLine level, gap_newLine level, ?_⟩
    rw [prettyChars, prettyMembers_eq_join]
    · simp
    · simp

theorem readValue_prettyChars {v : Json} (h : Regular JsonNumber.Legible v) (depth level : Nat) :
    ReadsAs (readValue depth) (v.prettyChars level) (reading depth v) := by
  induction h generalizing depth level with
  | null => exact readValue_compactChars .null depth
  | bool b => exact readValue_compactChars (.bool b) depth
  | number h => exact readValue_number h depth
  | string s => exact readValue_string s depth
  | @array items h ih =>
    obtain ⟨gap, hgap, hchars⟩ := prettyChars_array items level
    rw [hchars]
    refine readValue_array (fun v => newLine (level + 1) ++ v.prettyChars (level + 1)) hgap (fun v hv => ?_)
      (fun v hv depth => ?_) depth
    · exact ((h v hv).opensBefore (.inl rfl) (head?_prettyChars v _)).append (gap_newLine _)
    · exact (ih v hv depth (level + 1)).upToSpace.gap_append (gap_newLine _) (ignoresSpace_readValue depth)
  | @object members hsorted h ih =>
    obtain ⟨gap, hgap, hchars⟩ := prettyChars_object members level
    rw [hchars]
    refine readValue_object (fun v => [' '] ++ v.prettyChars (level + 1)) hgap (gap_newLine _) hsorted
      (fun m hm depth => ?_) depth
    exact (ih m hm depth (level + 1)).upToSpace.gap_append gap_space (ignoresSpace_readValue depth)

def itemOnLine (level : Nat) (v : Json) : List Char × Json :=
  (newLine level ++ v.prettyChars level, v)

def memberOnLine (level : Nat) (m : String × Json) : SpelledMember :=
  ⟨newLine level ++ Quoted.write m.1, m.1, [' '] ++ m.2.prettyChars level, m.2⟩

theorem map_snd_itemOnLine (level : Nat) (items : List Json) :
    (items.map (itemOnLine level)).map Prod.snd = items := by
  rw [List.map_map]
  exact List.map_id items

theorem map_member_memberOnLine (level : Nat) (members : List (String × Json)) :
    (members.map (memberOnLine level)).map SpelledMember.member = members := by
  rw [List.map_map]
  exact List.map_id members

theorem map_text_memberOnLine (level : Nat) (members : List (String × Json)) :
    (members.map (memberOnLine level)).map SpelledMember.text =
      members.map fun m => newLine level ++ memberText m.1 ([' '] ++ m.2.prettyChars level) := by
  rw [List.map_map]
  exact List.map_congr_left fun m _ => List.append_assoc _ _ _

theorem spells_prettyChars_object {written members : List (String × Json)} {d : Nat}
    (hsorted : members.Pairwise fun a b => a.1 < b.1)
    (hlast : ∀ name, members.lookup name = written.reverse.lookup name)
    (h : ∀ m ∈ written, ∀ level, Spells d (m.2.prettyChars level) m.2) (level : Nat) :
    Spells (d + 1) ((object written).prettyChars level) (object members) := by
  obtain ⟨gap, hgap, hchars⟩ := prettyChars_object written level
  rw [hchars, ← map_text_memberOnLine]
  refine .object (fun m hm => ?_) (fun m hm => ?_) hsorted (by rwa [map_member_memberOnLine]) hgap
  · obtain ⟨w, -, rfl⟩ := List.mem_map.1 hm
    exact ⟨newLine (level + 1), _, [], gap_newLine _, gap_nil, Quoted.spells_escapeAll _, rfl⟩
  · obtain ⟨w, hw, rfl⟩ := List.mem_map.1 hm
    have hvalue := Spells.space gap_space (h w hw (level + 1)) gap_nil
    rwa [List.append_nil] at hvalue

theorem spells_prettyChars {v : Json} (h : Regular JsonNumber.Integral v) {d : Nat} (hd : v.nesting ≤ d)
    (level : Nat) : Spells d (v.prettyChars level) v := by
  induction h generalizing d level with
  | null => exact .null d
  | bool b => exact .bool d b
  | number h => exact .number d h
  | string s => exact .string d (Quoted.spells_escapeAll s.toList)
  | @array items h ih =>
    obtain ⟨d, rfl⟩ := Nat.exists_eq_add_of_le' (Nat.le_trans (Nat.le_add_left 1 _) hd)
    have hnesting := nesting_array_le_iff.1 hd
    have hitems : ∀ i ∈ items.map (itemOnLine (level + 1)), Spells d i.1 i.2 := by
      intro i hi
      obtain ⟨v, hv, rfl⟩ := List.mem_map.1 hi
      have hvalue := Spells.space (gap_newLine (level + 1)) (ih v hv (hnesting v hv) (level + 1)) gap_nil
      rwa [List.append_nil] at hvalue
    obtain ⟨gap, hgap, hchars⟩ := prettyChars_array items level
    have harray := Spells.array hitems hgap
    rw [map_snd_itemOnLine, List.map_map] at harray
    rw [hchars]
    exact harray
  | @object members hsorted h ih =>
    obtain ⟨d, rfl⟩ := Nat.exists_eq_add_of_le' (Nat.le_trans (Nat.le_add_left 1 _) hd)
    have hnesting := nesting_object_le_iff.1 hd
    refine spells_prettyChars_object hsorted (fun name => ?_)
      (fun m hm level => ih m hm (hnesting m hm) level) level
    rw [← get?_ofList, ofList_of_sorted hsorted]
    rfl

end AddressLookup.Json
