import AddressLookup.Proofs.Json.Number
import AddressLookup.Proofs.Json.Value

/-! What a reader of JSON texts can answer. Every value that is read lists its members in order at every
level, has only numbers in range and is nested no deeper than the reader allows. -/

namespace AddressLookup.Json

variable {α : Type} {item : Step α} {p : α → Prop}

def Yields (item : Step α) (p : α → Prop) : Prop :=
  ∀ {s : List Char} {x : α} {rest : List Char}, item s = some (x, rest) → p x

theorem Yields.readItems (h : Yields item p) (close : Char) (fuel : Nat) :
    Yields (Json.readItems item close fuel) fun xs => ∀ x ∈ xs, p x := by
  induction fuel with
  | zero =>
    intro s xs rest hread
    cases hread
  | succ fuel ih =>
    intro s xs rest hread
    rw [Json.readItems] at hread
    split at hread
    · cases hread
    · next x more hitem =>
      have hx : p x := h hitem
      split at hread
      · cases hread
      · split at hread
        · obtain ⟨rfl, -⟩ := Prod.mk.inj (Option.some.inj hread)
          intro y hy
          rwa [List.mem_singleton.1 hy]
        · split at hread
          · split at hread
            · cases hread
            · next ys last hitems =>
              obtain ⟨rfl, -⟩ := Prod.mk.inj (Option.some.inj hread)
              intro y hy
              rcases List.mem_cons.1 hy with rfl | hy
              · exact hx
              · exact ih hitems y hy
          · cases hread

theorem Yields.readSequence (h : Yields item p) (close : Char) :
    Yields (Json.readSequence item close) fun xs => ∀ x ∈ xs, p x := by
  intro s xs rest hread
  unfold Json.readSequence at hread
  split at hread
  · cases hread
  · split at hread
    · obtain ⟨rfl, -⟩ := Prod.mk.inj (Option.some.inj hread)
      intro y hy
      cases hy
    · exact h.readItems close _ hread

theorem Yields.readMember (h : Yields item p) : Yields (Json.readMember item) fun m => p m.2 := by
  intro s m rest hread
  unfold Json.readMember at hread
  split at hread
  · cases hread
  · obtain ⟨⟨v, more⟩, hvalue, hpair⟩ := Option.map_eq_some_iff.1 hread
    obtain ⟨rfl, -⟩ := Prod.mk.inj hpair
    exact h hvalue

theorem mem_of_mem_arrange {members : List (String × α)} {m : String × α} (h : m ∈ arrange members) :
    m ∈ members := by
  rcases KeyMap.mem_of_mem_insertAll h with hm | hm
  · exact hm
  · cases hm

/-- A value in order, with numbers in range and nested at most `depth` deep. -/
structure Admissible (depth : Nat) (v : Json) : Prop where
  regular : Regular JsonNumber.InRange v
  nesting_le : v.nesting ≤ depth

theorem yields_readWord {word : List Char} {v : Json} (h : Admissible 0 v) :
    Yields (readWord word v) (Admissible 0) := by
  intro s x rest hread
  obtain ⟨more, -, hpair⟩ := Option.map_eq_some_iff.1 hread
  obtain ⟨rfl, -⟩ := Prod.mk.inj hpair
  exact h

theorem yields_readScalar : Yields readScalar (Admissible 0) := by
  intro s v rest hread
  unfold readScalar at hread
  split at hread
  · exact yields_readWord ⟨.null, Nat.le_refl 0⟩ hread
  · exact yields_readWord ⟨.bool true, Nat.le_refl 0⟩ hread
  · exact yields_readWord ⟨.bool false, Nat.le_refl 0⟩ hread
  · obtain ⟨⟨t, more⟩, -, hpair⟩ := Option.map_eq_some_iff.1 hread
    obtain ⟨rfl, -⟩ := Prod.mk.inj hpair
    exact ⟨.string t, Nat.le_refl 0⟩
  · obtain ⟨⟨n, more⟩, hnumber, hpair⟩ := Option.map_eq_some_iff.1 hread
    obtain ⟨rfl, -⟩ := Prod.mk.inj hpair
    exact ⟨.number (JsonNumber.inRange_of_read hnumber), Nat.le_refl 0⟩

theorem Admissible.mono {depth limit : Nat} {v : Json} (h : Admissible depth v) (hle : depth ≤ limit) :
    Admissible limit v :=
  ⟨h.regular, Nat.le_trans h.nesting_le hle⟩

theorem admissible_array {depth : Nat} {items : List Json} (h : ∀ v ∈ items, Admissible depth v) :
    Admissible (depth + 1) (array items) :=
  ⟨.array fun v hv => (h v hv).regular, nesting_array_le_iff.2 fun v hv => (h v hv).nesting_le⟩

theorem admissible_object {depth : Nat} {members : List (String × Json)}
    (h : ∀ m ∈ members, Admissible depth m.2) : Admissible (depth + 1) (object (arrange members)) := by
  have hkept : ∀ m ∈ arrange members, Admissible depth m.2 := fun m hm => h m (mem_of_mem_arrange hm)
  exact ⟨.object (sorted_arrange members) fun m hm => (hkept m hm).regular,
    nesting_object_le_iff.2 fun m hm => (hkept m hm).nesting_le⟩

theorem yields_readValue (depth : Nat) : Yields (readValue depth) (Admissible depth) := by
  induction depth with
  | zero =>
    intro s v rest hread
    rw [readValue] at hread
    exact yields_readScalar hread
  | succ depth ih =>
    intro s v rest hread
    rw [readValue] at hread
    split at hread
    · obtain ⟨⟨vs, more⟩, hitems, hpair⟩ := Option.map_eq_some_iff.1 hread
      obtain ⟨rfl, -⟩ := Prod.mk.inj hpair
      exact admissible_array (ih.readSequence ']' hitems)
    · obtain ⟨⟨ms, more⟩, hmembers, hpair⟩ := Option.map_eq_some_iff.1 hread
      obtain ⟨rfl, -⟩ := Prod.mk.inj hpair
      exact admissible_object (Yields.readSequence (Yields.readMember ih) '\x7d' hmembers)
    · exact (yields_readScalar hread).mono (Nat.zero_le _)

theorem admissible_of_parse {text : String} {v : Json} (h : parse text = some v) :
    Admissible depthLimit v := by
  unfold parse parseChars at h
  split at h
  · cases h
  · next w rest hread =>
    split at h
    · obtain rfl := Option.some.inj h
      exact yields_readValue depthLimit hread
    · cases h

end AddressLookup.Json
