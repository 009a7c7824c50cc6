/-!
Values under distinct text keys, listed in code-point order of the keys. Two maps are equal exactly
when they answer every key alike, so equality does not depend on how a map was built.
-/

namespace AddressLookup

structure KeyMap (α : Type) where
  entries : List (String × α)
  sorted : entries.Pairwise (fun a b => a.1 < b.1)
  deriving DecidableEq, Repr

namespace KeyMap

variable {α β : Type}

def empty : KeyMap α :=
  ⟨[], List.Pairwise.nil⟩

instance : EmptyCollection (KeyMap α) := ⟨empty⟩

instance : Inhabited (KeyMap α) := ⟨empty⟩

def get? (m : KeyMap α) (key : String) : Option α :=
  m.entries.lookup key

def contains (m : KeyMap α) (key : String) : Bool :=
  (m.get? key).isSome

def size (m : KeyMap α) : Nat :=
  m.entries.length

def isEmpty (m : KeyMap α) : Bool :=
  m.entries.isEmpty

def keys (m : KeyMap α) : List String :=
  m.entries.map (·.1)

def insertEntry (key : String) (value : α) : List (String × α) → List (String × α)
  | [] => [(key, value)]
  | (k, v) :: rest =>
    if key < k then (key, value) :: (k, v) :: rest
    else if k < key then (k, v) :: insertEntry key value rest
    else (key, value) :: rest

theorem eq_or_mem_of_mem_insertEntry {key : String} {value : α} {e : String × α}
    {es : List (String × α)} (h : e ∈ insertEntry key value es) : e = (key, value) ∨ e ∈ es := by
  induction es with
  | nil => simp_all [insertEntry]
  | cons head rest ih =>
    simp only [insertEntry] at h
    split at h
    · rcases List.mem_cons.1 h with rfl | h
      · exact .inl rfl
      · exact .inr h
    · split at h
      · rcases List.mem_cons.1 h with rfl | h
        · exact .inr List.mem_cons_self
        · exact (ih h).imp_right (List.mem_cons_of_mem _)
      · rcases List.mem_cons.1 h with rfl | h
        · exact .inl rfl
        · exact .inr (List.mem_cons_of_mem _ h)

theorem sorted_insertEntry (key : String) (value : α) {es : List (String × α)}
    (h : es.Pairwise (fun a b => a.1 < b.1)) :
    (insertEntry key value es).Pairwise (fun a b => a.1 < b.1) := by
  induction es with
  | nil => simp [insertEntry]
  | cons head rest ih =>
    obtain ⟨k, v⟩ := head
    obtain ⟨hhead, hrest⟩ := List.pairwise_cons.1 h
    simp only [insertEntry]
    split
    · next hlt =>
      refine List.pairwise_cons.2 ⟨fun e he => ?_, h⟩
      rcases List.mem_cons.1 he with rfl | he
      · exact hlt
      · exact String.lt_trans hlt (hhead e he)
    · next hnot =>
      split
      · next hgt =>
        refine List.pairwise_cons.2 ⟨fun e he => ?_, ih hrest⟩
        rcases eq_or_mem_of_mem_insertEntry he with rfl | he
        · exact hgt
        · exact hhead e he
      · next hnot' =>
        have heq : key = k := String.le_antisymm hnot' hnot
        subst heq
        exact List.pairwise_cons.2 ⟨hhead, hrest⟩

def insert (m : KeyMap α) (key : String) (value : α) : KeyMap α :=
  ⟨insertEntry key value m.entries, sorted_insertEntry key value m.sorted⟩

/-- Adds entries one after the other; of two with one key the later stays. -/
def insertAll (m : KeyMap α) (entries : List (String × α)) : KeyMap α :=
  entries.foldl (fun m e => m.insert e.1 e.2) m

def ofList (entries : List (String × α)) : KeyMap α :=
  (∅ : KeyMap α).insertAll entries

theorem mem_of_mem_insertAll {m : KeyMap α} {es : List (String × α)} {e : String × α}
    (h : e ∈ (m.insertAll es).entries) : e ∈ es ∨ e ∈ m.entries := by
  induction es generalizing m with
  | nil => exact .inr h
  | cons f es ih =>
    rcases ih h with he | he
    · exact .inl (List.mem_cons_of_mem f he)
    · rcases eq_or_mem_of_mem_insertEntry he with rfl | he
      · exact .inl List.mem_cons_self
      · exact .inr he

def override (m n : KeyMap α) : KeyMap α :=
  m.insertAll n.entries

def filter (m : KeyMap α) (keep : String → α → Bool) : KeyMap α :=
  ⟨m.entries.filter (fun e => keep e.1 e.2), m.sorted.filter _⟩

def mapValues (m : KeyMap α) (f : α → β) : KeyMap β :=
  ⟨m.entries.map (fun e => (e.1, f e.2)), m.sorted.map _ fun _ _ h => h⟩

@[simp] theorem get?_empty (key : String) : (∅ : KeyMap α).get? key = none := rfl

theorem lookup_cons (key : String) (e : String × α) (es : List (String × α)) :
    (e :: es).lookup key = if key = e.1 then some e.2 else es.lookup key := by
  rw [List.lookup_cons]
  by_cases h : key = e.1
  · simp [h]
  · rw [beq_eq_false_iff_ne.2 h, if_neg h]

theorem lookup_insertEntry (key other : String) (value : α) {es : List (String × α)}
    (h : es.Pairwise (fun a b => a.1 < b.1)) :
    (insertEntry key value es).lookup other = if other = key then some value else es.lookup other := by
  induction es with
  | nil => simp [insertEntry, lookup_cons]
  | cons head rest ih =>
    obtain ⟨k, v⟩ := head
    have hrest := (List.pairwise_cons.1 h).2
    simp only [insertEntry]
    split
    · simp [lookup_cons]
    · next hnot =>
      split
      · next hgt =>
        have hne : k ≠ key := fun heq => String.lt_irrefl key (heq ▸ hgt)
        simp only [lookup_cons, ih hrest]
        by_cases heq : other = k
        · subst heq
          simp [hne]
        · simp [heq]
      · next hnot' =>
        have heq : key = k := String.le_antisymm hnot' hnot
        subst heq
        by_cases hother : other = key <;> simp [lookup_cons, hother]

theorem get?_insert (m : KeyMap α) (key other : String) (value : α) :
    (m.insert key value).get? other = if other = key then some value else m.get? other :=
  lookup_insertEntry key other value m.sorted

theorem ne_of_key_lt {a b : String × α} (h : a.1 < b.1) : a.1 ≠ b.1 :=
  fun heq => String.lt_irrefl b.1 (heq ▸ h)

theorem distinct (m : KeyMap α) : m.entries.Pairwise fun a b => a.1 ≠ b.1 :=
  m.sorted.imp ne_of_key_lt

theorem lookup_eq_none_of_ne {key : String} {es : List (String × α)}
    (h : ∀ e ∈ es, key ≠ e.1) : es.lookup key = none := by
  induction es with
  | nil => rfl
  | cons head rest ih =>
    simp [lookup_cons, h head List.mem_cons_self, ih fun e he => h e (List.mem_cons_of_mem _ he)]

theorem lookup_eq_none_of_lt {key : String} {es : List (String × α)}
    (h : ∀ e ∈ es, key < e.1) : es.lookup key = none :=
  lookup_eq_none_of_ne fun e he heq => String.lt_irrefl key (by simpa [← heq] using h e he)

theorem lookup_of_mem {e : String × α} {es : List (String × α)}
    (h : es.Pairwise (fun a b => a.1 ≠ b.1)) (he : e ∈ es) : es.lookup e.1 = some e.2 := by
  induction es with
  | nil => exact absurd he List.not_mem_nil
  | cons head rest ih =>
    obtain ⟨hhead, hrest⟩ := List.pairwise_cons.1 h
    rw [lookup_cons]
    rcases List.mem_cons.1 he with rfl | he
    · rw [if_pos rfl]
    · rw [if_neg (hhead e he).symm, ih hrest he]

theorem mem_of_lookup {key : String} {value : α} {es : List (String × α)}
    (h : es.lookup key = some value) : (key, value) ∈ es := by
  obtain ⟨before, after, rfl, -⟩ := List.lookup_eq_some_iff.1 h
  exact List.mem_append_right _ List.mem_cons_self

theorem lookup_eq_some_iff_mem {key : String} {value : α} {es : List (String × α)}
    (h : es.Pairwise (fun a b => a.1 ≠ b.1)) : es.lookup key = some value ↔ (key, value) ∈ es :=
  ⟨mem_of_lookup, lookup_of_mem h⟩

theorem get?_of_mem {m : KeyMap α} {e : String × α} (h : e ∈ m.entries) : m.get? e.1 = some e.2 :=
  lookup_of_mem m.distinct h

theorem lookup_filter (keep : String → α → Bool) (key : String) {es : List (String × α)}
    (h : es.Pairwise (fun a b => a.1 < b.1)) :
    (es.filter fun e => keep e.1 e.2).lookup key = (es.lookup key).filter (keep key) := by
  induction es with
  | nil => rfl
  | cons e es ih =>
    obtain ⟨he, hes⟩ := List.pairwise_cons.1 h
    rw [List.filter_cons, lookup_cons]
    by_cases hkey : key = e.1
    · subst hkey
      by_cases hkeep : keep e.1 e.2
      · simp [hkeep, lookup_cons, Option.filter]
      · simp [hkeep, ih hes, lookup_eq_none_of_lt he, Option.filter]
    · split <;> simp [lookup_cons, hkey, ih hes]

theorem get?_filter (m : KeyMap α) (keep : String → α → Bool) (key : String) :
    (m.filter keep).get? key = (m.get? key).filter (keep key) :=
  lookup_filter keep key m.sorted

theorem get?_mapValues (m : KeyMap α) (f : α → β) (key : String) :
    (m.mapValues f).get? key = (m.get? key).map f := by
  show (m.entries.map fun e => (e.1, f e.2)).lookup key = (m.entries.lookup key).map f
  induction m.entries with
  | nil => rfl
  | cons e es ih =>
    rw [List.map_cons, lookup_cons, lookup_cons, ih]
    split <;> rfl

theorem get?_insertAll (m : KeyMap α) (key : String) {es : List (String × α)}
    (h : es.Pairwise (fun a b => a.1 ≠ b.1)) :
    (m.insertAll es).get? key = (es.lookup key).or (m.get? key) := by
  induction es generalizing m with
  | nil => rfl
  | cons e es ih =>
    obtain ⟨he, hes⟩ := List.pairwise_cons.1 h
    have hstep : m.insertAll (e :: es) = (m.insert e.1 e.2).insertAll es := rfl
    rw [hstep, ih _ hes, get?_insert, lookup_cons]
    by_cases hkey : key = e.1
    · simp [hkey, lookup_eq_none_of_ne he]
    · simp [hkey]

theorem get?_override (m n : KeyMap α) (key : String) :
    (m.override n).get? key = (n.get? key).or (m.get? key) :=
  m.get?_insertAll key n.distinct

theorem entries_ext {es fs : List (String × α)} (hes : es.Pairwise (fun a b => a.1 < b.1))
    (hfs : fs.Pairwise (fun a b => a.1 < b.1)) (h : ∀ key, es.lookup key = fs.lookup key) :
    es = fs := by
  induction es generalizing fs with
  | nil =>
    rcases fs with _ | ⟨f, fs⟩
    · rfl
    · simpa [lookup_cons] using h f.1
  | cons e es ih =>
    rcases fs with _ | ⟨f, fs⟩
    · simpa [lookup_cons] using h e.1
    · obtain ⟨he, hes⟩ := List.pairwise_cons.1 hes
      obtain ⟨hf, hfs⟩ := List.pairwise_cons.1 hfs
      have hkey : e.1 = f.1 := by
        refine String.le_antisymm (fun hlt => ?_) (fun hlt => ?_)
        · have hnone : (e :: es).lookup f.1 = none := lookup_eq_none_of_lt fun x hx => by
            rcases List.mem_cons.1 hx with rfl | hx
            · exact hlt
            · exact String.lt_trans hlt (he x hx)
          simp [h f.1, lookup_cons] at hnone
        · have hnone : (f :: fs).lookup e.1 = none := lookup_eq_none_of_lt fun x hx => by
            rcases List.mem_cons.1 hx with rfl | hx
            · exact hlt
            · exact String.lt_trans hlt (hf x hx)
          simp [← h e.1, lookup_cons] at hnone
      have hvalue : e.2 = f.2 := by
        have := h e.1
        simpa [lookup_cons, hkey] using this
      have htail : es = fs := ih hes hfs fun key => by
        by_cases hkey' : key = e.1
        · subst hkey'
          rw [lookup_eq_none_of_lt he, lookup_eq_none_of_lt (hkey ▸ hf)]
        · have := h key
          simpa [lookup_cons, hkey', hkey ▸ hkey'] using this
      rw [htail, Prod.ext hkey hvalue]

theorem ext_get? {m n : KeyMap α} (h : ∀ key, m.get? key = n.get? key) : m = n := by
  have := entries_ext m.sorted n.sorted h
  cases m
  cases n
  simpa using this

/-- To sort the entries, in whatever order they are listed, gives the map again. -/
theorem ofList_of_perm {m : KeyMap α} {es : List (String × α)} (h : es.Perm m.entries) : ofList es = m := by
  have hdistinct : es.Pairwise fun a b => a.1 ≠ b.1 :=
    (h.pairwise_iff fun hne => hne.symm).2 m.distinct
  refine ext_get? fun key => Option.ext fun value => ?_
  rw [ofList, get?_insertAll _ _ hdistinct, get?_empty, Option.or_none, lookup_eq_some_iff_mem hdistinct, h.mem_iff]
  exact (lookup_eq_some_iff_mem m.distinct).symm

theorem mapValues_eq_self {m : KeyMap α} {f : α → α} (h : ∀ e ∈ m.entries, f e.2 = e.2) :
    m.mapValues f = m := by
  have hentries : (m.entries.map fun e => (e.1, f e.2)) = m.entries := by
    conv => rhs; rw [← List.map_id m.entries]
    exact List.map_congr_left fun e he => by rw [h e he]; rfl
  cases m
  simpa [mapValues] using hentries

end KeyMap

end AddressLookup
