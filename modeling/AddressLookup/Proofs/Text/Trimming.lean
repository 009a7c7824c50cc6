import AddressLookup.Proofs.Text.Cutting
import AddressLookup.Text.Blank

/-! What trimming leaves of a text is the one text without white space at its ends around which the
white space lies. -/

namespace AddressLookup.Text

def Blank (s : List Char) : Prop :=
  ∀ c ∈ s, isBlank c = true

def Trimmed (s : List Char) : Prop :=
  (∀ c ∈ s.head?, isBlank c = false) ∧ ∀ c ∈ s.getLast?, isBlank c = false

instance (s : List Char) : Decidable (Blank s) :=
  List.decidableBAll (fun c => isBlank c = true) s

instance (s : List Char) : Decidable (Trimmed s) :=
  @instDecidableAnd _ _ (Option.decidableForallMem _) (Option.decidableForallMem _)

def Padded (core s : List Char) : Prop :=
  ∃ a b, Blank a ∧ Blank b ∧ s = a ++ (core ++ b)

theorem blank_nil : Blank [] := fun _ h => absurd h List.not_mem_nil

theorem blank_space : Blank [' '] := by decide

theorem blank_append {s t : List Char} : Blank (s ++ t) ↔ Blank s ∧ Blank t :=
  List.forall_mem_append

theorem Blank.reverse {s : List Char} (h : Blank s) : Blank s.reverse :=
  fun c hc => h c (List.mem_reverse.1 hc)

theorem Blank.not_mem {s word : List Char} (h : Blank s) (hword : ∀ c ∈ word, isBlank c = false) :
    ∀ c ∈ s, c ∉ word := by
  intro c hc hin
  have hblank := h c hc
  rw [hword c hin] at hblank
  exact Bool.noConfusion hblank

theorem not_blank_of_all {word : List Char} (h : word.all (fun c => !isBlank c) = true) :
    ∀ c ∈ word, isBlank c = false :=
  fun c hc => by simpa using List.all_eq_true.1 h c hc

theorem trimmed_nil : Trimmed [] :=
  ⟨fun _ h => by simp at h, fun _ h => by simp at h⟩

theorem padded_refl (s : List Char) : Padded s s :=
  ⟨[], [], blank_nil, blank_nil, by simp⟩

theorem Padded.append_left {core s a : List Char} (h : Padded core s) (ha : Blank a) :
    Padded core (a ++ s) := by
  obtain ⟨b, d, hb, hd, rfl⟩ := h
  exact ⟨a ++ b, d, blank_append.2 ⟨ha, hb⟩, hd, by simp⟩

theorem Padded.append_right {core s b : List Char} (h : Padded core s) (hb : Blank b) :
    Padded core (s ++ b) := by
  obtain ⟨a, d, ha, hd, rfl⟩ := h
  exact ⟨a, d ++ b, ha, blank_append.2 ⟨hd, hb⟩, by simp⟩

theorem Padded.isInfix {core s : List Char} (h : Padded core s) : core <:+: s := by
  obtain ⟨a, b, -, -, rfl⟩ := h
  exact List.infix_append' a core b

theorem Padded.infix_iff {core s word : List Char} (h : Padded core s) (hne : word ≠ [])
    (hword : ∀ c ∈ word, isBlank c = false) : word <:+: s ↔ word <:+: core := by
  obtain ⟨a, b, ha, hb, rfl⟩ := h
  rw [infix_append_iff_right (ha.not_mem hword) hne, infix_append_iff_left (hb.not_mem hword) hne]

theorem trimStart_append {a : List Char} (ha : Blank a) (s : List Char) :
    trimStart (a ++ s) = trimStart s :=
  List.dropWhile_append_of_pos ha

theorem trimStart_of_blank {s : List Char} (h : Blank s) : trimStart s = [] := by
  have hs := trimStart_append h []
  rwa [List.append_nil] at hs

theorem trimStart_of_head {s : List Char} (h : ∀ c ∈ s.head?, isBlank c = false) :
    trimStart s = s := by
  cases s with
  | nil => rfl
  | cons c s => exact List.dropWhile_cons_of_neg (by simp [h c rfl])

theorem isBlank_head_trimStart (s : List Char) : ∀ c ∈ (trimStart s).head?, isBlank c = false := by
  intro c hc
  have hhead := List.head?_dropWhile_not isBlank s
  rw [show (s.dropWhile isBlank).head? = some c from hc] at hhead
  exact hhead

theorem exists_eq_append_trimStart (s : List Char) : ∃ a, Blank a ∧ s = a ++ trimStart s :=
  ⟨s.takeWhile isBlank, List.all_eq_true.1 List.all_takeWhile, List.takeWhile_append_dropWhile.symm⟩

theorem trimEnd_eq_reverse (s : List Char) : trimEnd s = (trimStart s.reverse).reverse := rfl

theorem exists_eq_trimEnd_append (s : List Char) : ∃ b, Blank b ∧ s = trimEnd s ++ b := by
  obtain ⟨a, ha, hs⟩ := exists_eq_append_trimStart s.reverse
  refine ⟨a.reverse, ha.reverse, ?_⟩
  rw [trimEnd_eq_reverse, ← List.reverse_append, ← hs, List.reverse_reverse]

theorem trimEnd_append {b : List Char} (hb : Blank b) (s : List Char) :
    trimEnd (s ++ b) = trimEnd s := by
  rw [trimEnd_eq_reverse, List.reverse_append, trimStart_append hb.reverse, ← trimEnd_eq_reverse]

theorem trimEnd_of_getLast {s : List Char} (h : ∀ c ∈ s.getLast?, isBlank c = false) :
    trimEnd s = s := by
  rw [trimEnd_eq_reverse, trimStart_of_head (by rwa [List.head?_reverse]), List.reverse_reverse]

theorem trimmed_trim (s : List Char) : Trimmed (trim s) := by
  refine ⟨fun c hc => ?_, fun c hc => ?_⟩
  · obtain ⟨b, -, hb⟩ := exists_eq_trimEnd_append (trimStart s)
    refine isBlank_head_trimStart s c ?_
    have hhead : (trim s).head? = some c := hc
    rw [hb, List.head?_append, ← trim, hhead]
    rfl
  · refine isBlank_head_trimStart (trimStart s).reverse c ?_
    rwa [trim, trimEnd_eq_reverse, List.getLast?_reverse] at hc

theorem padded_trim (s : List Char) : Padded (trim s) s := by
  obtain ⟨a, ha, hs⟩ := exists_eq_append_trimStart s
  obtain ⟨b, hb, ht⟩ := exists_eq_trimEnd_append (trimStart s)
  exact ⟨a, b, ha, hb, by rw [trim, ← ht, ← hs]⟩

theorem trim_append_left {a : List Char} (ha : Blank a) (s : List Char) :
    trim (a ++ s) = trim s := by
  rw [trim, trimStart_append ha, ← trim]

theorem trim_eq_of_padded {s core : List Char} (hcore : Trimmed core) (h : Padded core s) :
    trim s = core := by
  obtain ⟨a, b, ha, hb, rfl⟩ := h
  rw [trim_append_left ha]
  rcases core with _ | ⟨c, core⟩
  · rw [List.nil_append, trim, trimStart_of_blank hb]
    rfl
  · rw [trim, trimStart_of_head (fun d hd => hcore.1 d (by simpa using hd)), trimEnd_append hb,
      trimEnd_of_getLast hcore.2]

theorem trim_eq_iff {s core : List Char} : trim s = core ↔ Trimmed core ∧ Padded core s := by
  constructor
  · rintro rfl
    exact ⟨trimmed_trim s, padded_trim s⟩
  · rintro ⟨hcore, h⟩
    exact trim_eq_of_padded hcore h

theorem trim_append_right {b : List Char} (hb : Blank b) (s : List Char) :
    trim (s ++ b) = trim s :=
  trim_eq_of_padded (trimmed_trim s) ((padded_trim s).append_right hb)

theorem trim_eq_nil_iff {s : List Char} : trim s = [] ↔ Blank s := by
  rw [trim_eq_iff]
  constructor
  · rintro ⟨-, a, b, ha, hb, rfl⟩
    exact blank_append.2 ⟨ha, by simpa using hb⟩
  · intro h
    exact ⟨trimmed_nil, s, [], h, blank_nil, by simp⟩

theorem trim_append_cons {c : Char} (hc : isBlank c = false) (s t : List Char) :
    ∃ a b, Blank a ∧ Blank b ∧ s = a ++ trimStart s ∧ t = trimEnd t ++ b ∧
      trim (s ++ c :: t) = trimStart s ++ c :: trimEnd t := by
  obtain ⟨a, ha, hs⟩ := exists_eq_append_trimStart s
  obtain ⟨b, hb, ht⟩ := exists_eq_trimEnd_append t
  refine ⟨a, b, ha, hb, hs, ht, trim_eq_of_padded ⟨fun d hd => ?_, fun d hd => ?_⟩ ?_⟩
  · rcases hstart : trimStart s with _ | ⟨e, rest⟩
    · rw [hstart] at hd
      obtain rfl : c = d := by simpa using hd
      exact hc
    · refine isBlank_head_trimStart s d ?_
      rw [hstart] at hd ⊢
      simpa using hd
  · rcases hend : trimEnd t with _ | ⟨e, rest⟩
    · rw [hend] at hd
      obtain rfl : c = d := by simpa using hd
      exact hc
    · refine isBlank_head_trimStart t.reverse d ?_
      rw [← List.getLast?_reverse, ← trimEnd_eq_reverse, hend]
      rw [hend] at hd
      simpa [List.getLast?_append] using hd
  · refine ⟨a, b, ha, hb, ?_⟩
    calc s ++ c :: t = (a ++ trimStart s) ++ c :: (trimEnd t ++ b) := by rw [← hs, ← ht]
      _ = a ++ ((trimStart s ++ c :: trimEnd t) ++ b) := by simp

end AddressLookup.Text
