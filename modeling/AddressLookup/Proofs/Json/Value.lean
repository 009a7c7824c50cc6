import AddressLookup.Proofs.Json.Sequence

/-! Reading back what was written. A value that is written in one line reads back within a depth exactly
when it is nested no deeper, and then as the value with each number read from its own text. -/

namespace AddressLookup.Json

open Text

mutual

def nesting : Json → Nat
  | array items => itemsNesting items + 1
  | object members => membersNesting members + 1
  | _ => 0

def itemsNesting : List Json → Nat
  | [] => 0
  | item :: items => max item.nesting (itemsNesting items)

def membersNesting : List (String × Json) → Nat
  | [] => 0
  | (_, value) :: members => max value.nesting (membersNesting members)

end

mutual

def reread : Json → Json
  | number n => number n.reread
  | array items => array (rereadItems items)
  | object members => object (rereadMembers members)
  | v => v

def rereadItems : List Json → List Json
  | [] => []
  | item :: items => item.reread :: rereadItems items

def rereadMembers : List (String × Json) → List (String × Json)
  | [] => []
  | (name, value) :: members => (name, value.reread) :: rereadMembers members

end

/-- Values that list their members in order at every level and have only numbers of a kind. -/
inductive Regular (kind : JsonNumber → Prop) : Json → Prop
  | null : Regular kind null
  | bool (b : Bool) : Regular kind (bool b)
  | number {n : JsonNumber} (h : kind n) : Regular kind (number n)
  | string (s : String) : Regular kind (string s)
  | array {items : List Json} (h : ∀ v ∈ items, Regular kind v) : Regular kind (array items)
  | object {members : List (String × Json)} (hsorted : members.Pairwise (fun a b => a.1 < b.1))
      (h : ∀ m ∈ members, Regular kind m.2) : Regular kind (object members)

theorem Regular.mono {kind kind' : JsonNumber → Prop} (hkind : ∀ n, kind n → kind' n) {v : Json}
    (h : Regular kind v) : Regular kind' v := by
  induction h with
  | null => exact .null
  | bool b => exact .bool b
  | number h => exact .number (hkind _ h)
  | string s => exact .string s
  | array _ ih => exact .array ih
  | object hsorted _ ih => exact .object hsorted ih

theorem itemsNesting_le_iff {items : List Json} {d : Nat} :
    itemsNesting items ≤ d ↔ ∀ v ∈ items, v.nesting ≤ d := by
  induction items with
  | nil => simp [itemsNesting]
  | cons item items ih => rw [itemsNesting, Nat.max_le, ih, List.forall_mem_cons]

theorem membersNesting_le_iff {members : List (String × Json)} {d : Nat} :
    membersNesting members ≤ d ↔ ∀ m ∈ members, m.2.nesting ≤ d := by
  induction members with
  | nil => simp [membersNesting]
  | cons member members ih => rw [membersNesting, Nat.max_le, ih, List.forall_mem_cons]

theorem nesting_array_le_iff {items : List Json} {d : Nat} :
    (array items).nesting ≤ d + 1 ↔ ∀ v ∈ items, v.nesting ≤ d := by
  rw [nesting, Nat.add_le_add_iff_right, itemsNesting_le_iff]

theorem nesting_object_le_iff {members : List (String × Json)} {d : Nat} :
    (object members).nesting ≤ d + 1 ↔ ∀ m ∈ members, m.2.nesting ≤ d := by
  rw [nesting, Nat.add_le_add_iff_right, membersNesting_le_iff]

theorem rereadItems_eq_map (items : List Json) : rereadItems items = items.map reread := by
  induction items with
  | nil => rfl
  | cons item items ih => rw [rereadItems, ih, List.map_cons]

theorem rereadMembers_eq_map (members : List (String × Json)) :
    rereadMembers members = members.map fun m => (m.1, m.2.reread) := by
  induction members with
  | nil => rfl
  | cons member members ih => rw [rereadMembers, ih, List.map_cons]

theorem ofList_of_sorted {α : Type} {members : List (String × α)}
    (h : members.Pairwise (fun a b => a.1 < b.1)) : KeyMap.ofList members = ⟨members, h⟩ :=
  KeyMap.ofList_of_perm (.refl members)

theorem arrange_of_sorted {α : Type} {members : List (String × α)}
    (h : members.Pairwise (fun a b => a.1 < b.1)) : arrange members = members := by
  rw [arrange, ofList_of_sorted h]

theorem sorted_arrange {α : Type} (members : List (String × α)) :
    (arrange members).Pairwise (fun a b => a.1 < b.1) :=
  (KeyMap.ofList members).sorted

theorem Regular.reread_eq {v : Json} (h : Regular JsonNumber.Integral v) : v.reread = v := by
  induction h with
  | null => rfl
  | bool b => rfl
  | number h => rw [reread, h.reread_eq]
  | string s => rfl
  | array h ih =>
    rw [reread, rereadItems_eq_map, List.map_congr_left ih, List.map_id']
  | object hsorted h ih =>
    rw [reread, rereadMembers_eq_map, List.map_congr_left (g := id) fun m hm => by rw [ih m hm]; rfl,
      List.map_id]

theorem JsonNumber.Legible.chars_eq_cons {n : JsonNumber} (h : n.Legible) :
    ∃ c rest, n.chars = c :: rest ∧ (c = '-' ∨ c.isDigit = true) := by
  obtain ⟨m, hm⟩ := h
  have hread := hm [] (stopsRun_nil _)
  rw [List.append_nil] at hread
  rcases hchars : n.chars with _ | ⟨c, rest⟩
  · rw [hchars] at hread
    exact absurd hread (by simp [JsonNumber.read, JsonNumber.readMagnitude])
  · refine ⟨c, rest, rfl, ?_⟩
    by_cases hminus : c = '-'
    · exact .inl hminus
    · refine .inr ?_
      rw [hchars, JsonNumber.read.eq_def] at hread
      split at hread
      · next heq => exact absurd (List.cons.inj heq).1 hminus
      · rw [JsonNumber.readMagnitude] at hread
        by_cases hzero : c = '0'
        · rw [hzero]
          rfl
        · rw [if_neg hzero] at hread
          by_cases hdigit : c.isDigit = true
          · exact hdigit
          · rw [if_neg hdigit] at hread
            exact absurd hread (by simp)

theorem isSpace_of_number_start {c : Char} (hc : c = '-' ∨ c.isDigit = true) : isSpace c = false := by
  refine Bool.eq_false_iff.2 fun hspace => ?_
  simp only [isSpace, Bool.or_eq_true, decide_eq_true_eq] at hspace
  rcases hspace with ((rfl | rfl) | rfl) | rfl <;> exact absurd hc (by decide)

theorem Regular.exists_head? {v : Json} (h : Regular JsonNumber.Legible v) {close : Char}
    (hclose : Closing close) : ∃ c, v.compactChars.head? = some c ∧ isSpace c = false ∧ c ≠ close := by
  cases h with
  | null => exact ⟨'n', rfl, rfl, by rcases hclose with rfl | rfl <;> decide⟩
  | bool b =>
    cases b with
    | true => exact ⟨'t', rfl, rfl, by rcases hclose with rfl | rfl <;> decide⟩
    | false => exact ⟨'f', rfl, rfl, by rcases hclose with rfl | rfl <;> decide⟩
  | number h =>
    obtain ⟨c, rest, heq, hc⟩ := JsonNumber.Legible.chars_eq_cons h
    refine ⟨c, by rw [compactChars, heq, List.head?_cons], isSpace_of_number_start hc, ?_⟩
    rintro rfl
    rcases hclose with rfl | rfl <;> rcases hc with h | h <;> exact absurd h (by decide)
  | string s => exact ⟨'"', rfl, rfl, by rcases hclose with rfl | rfl <;> decide⟩
  | array h => exact ⟨'[', rfl, rfl, by rcases hclose with rfl | rfl <;> decide⟩
  | object hsorted h => exact ⟨'\x7b', rfl, rfl, by rcases hclose with rfl | rfl <;> decide⟩

theorem Regular.opensBefore {v : Json} (h : Regular JsonNumber.Legible v) {close : Char}
    (hclose : Closing close) {text : List Char} (htext : text.head? = v.compactChars.head?) :
    OpensBefore close text := by
  obtain ⟨c, hhead, hspace, hne⟩ := h.exists_head? hclose
  obtain ⟨rest, rfl⟩ := List.head?_eq_some_iff.1 (htext.trans hhead)
  exact opensBefore_cons hspace hne rest

theorem readValue_scalar {c : Char} (hspace : isSpace c = false) (harray : c ≠ '[')
    (hobject : c ≠ '\x7b') (depth : Nat) (rest : List Char) :
    readValue depth (c :: rest) = readScalar (c :: rest) := by
  cases depth with
  | zero => rw [readValue, skipSpace_cons hspace]
  | succ depth =>
    rw [readValue, skipSpace_cons hspace]
    split
    · next heq => exact absurd (List.cons.inj heq).1 harray
    · next heq => exact absurd (List.cons.inj heq).1 hobject
    · rfl

theorem readScalar_number {c : Char} (hc : c = '-' ∨ c.isDigit = true) (rest : List Char) :
    readScalar (c :: rest) = (JsonNumber.read (c :: rest)).map fun (n, rest) => (number n, rest) := by
  unfold readScalar
  split
  · next heq => exact absurd hc (by rw [(List.cons.inj heq).1]; decide)
  · next heq => exact absurd hc (by rw [(List.cons.inj heq).1]; decide)
  · next heq => exact absurd hc (by rw [(List.cons.inj heq).1]; decide)
  · next heq => exact absurd hc (by rw [(List.cons.inj heq).1]; decide)
  · rfl

theorem readValue_zero_bracket {c : Char} (hc : c = '[' ∨ c = '\x7b') (rest : List Char) :
    readValue 0 (c :: rest) = none := by
  rcases hc with rfl | rfl <;> rfl

theorem readValue_number {n : JsonNumber} (h : n.Legible) (depth : Nat) :
    ReadsAs (readValue depth) (number n).compactChars (some (number n.reread)) := by
  intro rest hrest
  obtain ⟨c, t, heq, hc⟩ := JsonNumber.Legible.chars_eq_cons h
  have hread := h.read_chars hrest
  rw [compactChars, heq, List.cons_append] at *
  rw [readValue_scalar (isSpace_of_number_start hc) (by rintro rfl; exact absurd hc (by decide))
    (by rintro rfl; exact absurd hc (by decide)), readScalar_number hc, hread]
  rfl

theorem readValue_quoted {body : List Char} {s : String} (h : Quoted.Spells body s.toList) (depth : Nat) :
    ReadsAs (readValue depth) ('"' :: (body ++ ['"'])) (some (string s)) := by
  intro rest _
  have htext : '"' :: (body ++ ['"']) ++ rest = '"' :: (body ++ '"' :: rest) := by simp
  rw [htext, readValue_scalar rfl (by decide) (by decide)]
  show ((Quoted.read (body ++ '"' :: rest)).map _) = _
  rw [h.read_append]
  rfl

theorem readValue_string (s : String) (depth : Nat) :
    ReadsAs (readValue depth) (string s).compactChars (some (string s)) :=
  readValue_quoted (Quoted.spells_escapeAll s.toList) depth

def reading (depth : Nat) (v : Json) : Option Json :=
  if v.nesting ≤ depth then some v.reread else none

theorem ignoresSpace_readValue (depth : Nat) : IgnoresSpace (readValue depth) := by
  intro s
  cases depth with
  | zero => rw [readValue, readValue, skipSpace_skipSpace]
  | succ depth => rw [readValue, readValue, skipSpace_skipSpace]

section

variable (write : Json → List Char) {lead gap : List Char}

theorem readValue_array (hgap : Gap gap) {items : List Json}
    (hopen : ∀ v ∈ items, OpensBefore ']' (write v))
    (ih : ∀ v ∈ items, ∀ depth, ReadsUpToSpace (readValue depth) (write v) (reading depth v))
    (depth : Nat) :
    ReadsAs (readValue depth) ('[' :: (joinWith [','] (items.map write) ++ (gap ++ [']'])))
      (reading depth (array items)) := by
  intro rest _
  have hchars : '[' :: (joinWith [','] (items.map write) ++ (gap ++ [']'])) ++ rest =
      '[' :: (joinWith [','] (items.map write) ++ (gap ++ ']' :: rest)) := by simp
  rw [hchars]
  cases depth with
  | zero => exact readValue_zero_bracket (.inl rfl) _
  | succ depth =>
    have hitems := readSequence_join (.inl rfl) hgap (ignoresSpace_readValue depth) hopen
      (fun v hv => ih v hv depth) rest
    unfold reading at hitems
    rw [mapM_ite] at hitems
    show ((readSequence (readValue depth) ']' _).map _) = _
    rw [hitems, reading]
    by_cases hfits : ∀ v ∈ items, v.nesting ≤ depth
    · rw [if_pos hfits, if_pos (nesting_array_le_iff.2 hfits), reread,
        rereadItems_eq_map]
      rfl
    · rw [if_neg hfits, if_neg fun hle => hfits (nesting_array_le_iff.1 hle)]
      rfl

theorem readValue_object (hgap : Gap gap) (hlead : Gap lead) {members : List (String × Json)}
    (hsorted : members.Pairwise fun a b => a.1 < b.1)
    (ih : ∀ m ∈ members, ∀ depth, ReadsUpToSpace (readValue depth) (write m.2) (reading depth m.2))
    (depth : Nat) :
    ReadsAs (readValue depth)
      ('\x7b' :: (joinWith [','] (members.map fun m => lead ++ memberText m.1 (write m.2)) ++
        (gap ++ ['\x7d'])))
      (reading depth (object members)) := by
  intro rest _
  have hchars : ∀ texts : List Char, '\x7b' :: (texts ++ (gap ++ ['\x7d'])) ++ rest =
      '\x7b' :: (texts ++ (gap ++ '\x7d' :: rest)) := by simp
  rw [hchars]
  cases depth with
  | zero => exact readValue_zero_bracket (.inr rfl) _
  | succ depth =>
    have hignores := ignoresSpace_readMember (readValue depth)
    have hmembers := readSequence_join (.inr rfl) hgap hignores
      (fun m _ => (memberText_opensBefore (.inr rfl) m.1 (write m.2)).append hlead)
      (fun m hm => (readMember_memberText (ih m hm depth) m.1).gap_append hlead hignores) rest
    have hresult : (fun m : String × Json => (reading depth m.2).map (m.1, ·)) =
        fun m => if m.2.nesting ≤ depth then some (m.1, m.2.reread) else none := by
      funext m
      unfold reading
      split <;> rfl
    rw [hresult, mapM_ite] at hmembers
    show ((readSequence (readMember (readValue depth)) '\x7d' _).map _) = _
    rw [hmembers, reading]
    by_cases hfits : ∀ m ∈ members, m.2.nesting ≤ depth
    · rw [if_pos hfits, if_pos (nesting_object_le_iff.2 hfits), reread,
        rereadMembers_eq_map]
      -- The members are sorted already, so reading does not arrange them anew.
      have hsame := arrange_of_sorted (hsorted.map (fun m : String × Json => (m.1, m.2.reread))
        fun _ _ hlt => hlt)
      simp only [Option.map_some, hsame]
    · rw [if_neg hfits, if_neg fun hle => hfits (nesting_object_le_iff.1 hle)]
      rfl

end

theorem readValue_compactChars {v : Json} (h : Regular JsonNumber.Legible v) (depth : Nat) :
    ReadsAs (readValue depth) v.compactChars (reading depth v) := by
  induction h generalizing depth with
  | null =>
    intro rest _
    exact readValue_scalar rfl (by decide) (by decide) depth _
  | bool b =>
    intro rest _
    cases b with
    | true => exact readValue_scalar rfl (by decide) (by decide) depth _
    | false => exact readValue_scalar rfl (by decide) (by decide) depth _
  | number h => exact readValue_number h depth
  | string s => exact readValue_string s depth
  | array h ih =>
    rw [compactChars, compactItems_eq_join]
    exact readValue_array compactChars gap_nil (fun v hv => (h v hv).opensBefore (.inl rfl) rfl)
      (fun v hv depth => (ih v hv depth).upToSpace) depth
  | object hsorted h ih =>
    rw [compactChars, compactMembers_eq_join]
    exact readValue_object compactChars gap_nil gap_nil hsorted
      (fun m hm depth => (ih m hm depth).upToSpace) depth

theorem parse_compact {v : Json} (h : Regular JsonNumber.Legible v) (hnesting : v.nesting ≤ depthLimit) :
    parse v.compact = some v.reread := by
  have hread := readValue_compactChars h depthLimit [] (stopsRun_nil _)
  rw [List.append_nil, reading, if_pos hnesting] at hread
  unfold parse parseChars compact
  rw [String.toList_ofList, hread]
  rfl

end AddressLookup.Json
