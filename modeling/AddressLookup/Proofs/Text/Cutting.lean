import AddressLookup.Text.Split

/-! Cutting a text at a word undoes gluing parts with the word, provided that no part holds the word and
that no beginning of the word is also an end of it: only then can gluing make no occurrence of its own. -/

namespace AddressLookup.Text

variable {α : Type}

/-- No proper beginning of the word is also an end of it. -/
def Borderless (word : List α) : Prop :=
  ∀ n < word.length, 0 < n → ¬ word.take n <:+ word

instance [DecidableEq α] (word : List α) : Decidable (Borderless word) :=
  inferInstanceAs (Decidable (∀ n < word.length, 0 < n → ¬ word.take n <:+ word))

theorem borderless_singleton (c : α) : Borderless [c] := by
  intro n hn hpos
  simp only [List.length_singleton] at hn
  omega

theorem singleton_infix_iff {c : α} {s : List α} : [c] <:+: s ↔ c ∈ s := by
  constructor
  · intro h
    exact h.subset (List.mem_singleton_self c)
  · intro h
    obtain ⟨a, b, rfl⟩ := List.append_of_mem h
    exact ⟨a, b, by simp⟩

theorem infix_append_cons_iff {word s t : List α} {c : α} (hc : c ∉ word) (hne : word ≠ []) :
    word <:+: s ++ c :: t ↔ word <:+: s ∨ word <:+: t := by
  constructor
  · induction s with
    | nil =>
      rw [List.nil_append, List.infix_cons_iff]
      rintro (h | h)
      · obtain rfl | ⟨u, rfl, -⟩ := List.prefix_cons_iff.1 h
        · exact absurd rfl hne
        · exact absurd List.mem_cons_self hc
      · exact .inr h
    | cons d s ih =>
      rw [List.cons_append, List.infix_cons_iff]
      rintro (h | h)
      · refine .inl (List.IsPrefix.isInfix ?_)
        rcases List.prefix_or_prefix_of_prefix h (List.prefix_append (d :: s) (c :: t)) with h' | h'
        · exact h'
        · -- The word would reach past `s`, so it would have the symbol.
          obtain ⟨u, rfl⟩ := h'
          rcases u with _ | ⟨e, u⟩
          · simp
          · rw [← List.cons_append, List.prefix_append_right_inj, List.cons_prefix_cons] at h
            exact absurd (by simp [h.1]) hc
      · exact (ih h).imp_left fun h => h.trans (List.suffix_cons d s).isInfix
  · rintro (h | h)
    · exact h.trans (List.prefix_append s (c :: t)).isInfix
    · exact h.trans ((List.suffix_cons c t).trans (List.suffix_append s (c :: t))).isInfix

theorem infix_append_iff_left {word s b : List α} (hb : ∀ c ∈ b, c ∉ word) (hne : word ≠ []) :
    word <:+: s ++ b ↔ word <:+: s := by
  induction b generalizing s with
  | nil => rw [List.append_nil]
  | cons c b ih =>
    have hb' : ∀ d ∈ b, d ∉ word := fun d hd => hb d (List.mem_cons_of_mem c hd)
    rw [infix_append_cons_iff (hb c List.mem_cons_self) hne]
    refine ⟨fun h => h.elim id fun h => ?_, .inl⟩
    have hnil : word <:+: [] := (ih hb').1 (by simpa using h)
    exact absurd (List.infix_nil.1 hnil) hne

theorem infix_append_iff_right {word a s : List α} (ha : ∀ c ∈ a, c ∉ word) (hne : word ≠ []) :
    word <:+: a ++ s ↔ word <:+: s := by
  induction a with
  | nil => rw [List.nil_append]
  | cons c a ih =>
    have ha' : ∀ d ∈ a, d ∉ word := fun d hd => ha d (List.mem_cons_of_mem c hd)
    have hcons := infix_append_cons_iff (s := []) (t := a ++ s) (ha c List.mem_cons_self) hne
    rw [List.nil_append] at hcons
    rw [List.cons_append, hcons, ih ha']
    exact ⟨fun h => h.elim (fun h => absurd (List.infix_nil.1 h) hne) id, .inr⟩

theorem not_prefix_of_borderless {word s t : List α} (hword : Borderless word)
    (hs : ¬ word <:+: s) (hne : s ≠ []) : ¬ word <+: s ++ (word ++ t) := by
  intro h
  rcases List.prefix_or_prefix_of_prefix h (List.prefix_append s (word ++ t)) with h' | ⟨u, rfl⟩
  · exact hs h'.isInfix
  · have hu : u <+: s ++ u := by
      have hut : u <+: (s ++ u) ++ t := (List.prefix_append_right_inj s).1 h
      exact List.prefix_of_prefix_length_le hut (List.prefix_append (s ++ u) t) (by simp)
    have hlen : 0 < s.length := List.length_pos_iff.2 hne
    rcases Nat.eq_zero_or_pos u.length with hzero | hpos
    · obtain rfl := List.length_eq_zero_iff.1 hzero
      exact hs (by simp)
    · refine hword u.length (by simp only [List.length_append]; omega) hpos ?_
      rw [← List.prefix_iff_eq_take.1 hu]
      exact List.suffix_append s u

theorem extendFirst_ne_nil (c : α) (parts : List (List α)) : extendFirst c parts ≠ [] := by
  cases parts <;> simp [extendFirst]

theorem length_extendFirst (c : α) {parts : List (List α)} (h : parts ≠ []) :
    (extendFirst c parts).length = parts.length := by
  cases parts with
  | nil => exact absurd rfl h
  | cons part parts => rfl

def extendLast (b : List α) : List (List α) → List (List α)
  | [] => []
  | [p] => [p ++ b]
  | p :: q :: ps => p :: extendLast b (q :: ps)

theorem extendLast_cons (b p : List α) {ps : List (List α)} (h : ps ≠ []) :
    extendLast b (p :: ps) = p :: extendLast b ps := by
  cases ps with
  | nil => exact absurd rfl h
  | cons q qs => rfl

variable [DecidableEq α]

theorem splitWordAfter_ne_nil (word : List α) (skip : Nat) (s : List α) :
    splitWordAfter word skip s ≠ [] := by
  induction s generalizing skip with
  | nil => cases skip <;> simp [splitWordAfter]
  | cons c s ih =>
    rcases skip with _ | skip
    · simp only [splitWordAfter]
      split
      · simp
      · exact extendFirst_ne_nil c _
    · exact ih skip

theorem splitWord_ne_nil (word s : List α) : splitWord word s ≠ [] :=
  splitWordAfter_ne_nil word 0 s

theorem splitWordAfter_append (word u t : List α) :
    splitWordAfter word u.length (u ++ t) = splitWord word t := by
  induction u with
  | nil => rfl
  | cons c u ih => simpa only [List.length_cons, List.cons_append, splitWordAfter] using ih

theorem splitWord_cons_of_not_start {word : List α} {c : α} {s : List α}
    (h : ¬ word <+: c :: s) : splitWord word (c :: s) = extendFirst c (splitWord word s) := by
  have hfalse : word.isPrefixOf (c :: s) = false := by
    rw [Bool.eq_false_iff, Ne, List.isPrefixOf_iff_prefix]
    exact h
  simp only [splitWord, splitWordAfter, hfalse, Bool.false_eq_true, if_false]

theorem splitWord_word_append {word : List α} (hne : word ≠ []) (t : List α) :
    splitWord word (word ++ t) = [] :: splitWord word t := by
  obtain ⟨c, u, rfl⟩ := List.exists_cons_of_ne_nil hne
  have htrue : (c :: u).isPrefixOf (c :: (u ++ t)) = true :=
    List.isPrefixOf_iff_prefix.2 (List.prefix_append (c :: u) t)
  rw [← splitWordAfter_append (c :: u) u t]
  simp only [List.cons_append, splitWord, splitWordAfter, htrue, if_true, List.length_cons,
    Nat.add_sub_cancel]

theorem splitWord_of_free {word s : List α} (h : ¬ word <:+: s) : splitWord word s = [s] := by
  induction s with
  | nil => rfl
  | cons c s ih =>
    rw [List.infix_cons_iff, not_or] at h
    rw [splitWord_cons_of_not_start h.1, ih h.2]
    rfl

theorem splitWord_append {word s : List α} (hword : Borderless word) (hne : word ≠ [])
    (hs : ¬ word <:+: s) (t : List α) :
    splitWord word (s ++ (word ++ t)) = s :: splitWord word t := by
  induction s with
  | nil => exact splitWord_word_append hne t
  | cons c s ih =>
    have hstart := not_prefix_of_borderless (t := t) hword hs (List.cons_ne_nil c s)
    rw [List.infix_cons_iff, not_or] at hs
    rw [List.cons_append, splitWord_cons_of_not_start (by simpa using hstart), ih hs.2]
    rfl

theorem splitWord_eq_cons {word s p : List α} {ps : List (List α)} (hne : word ≠ [])
    (h : splitWord word s = p :: ps) :
    ¬ word <:+: p ∧ (ps = [] ∧ s = p ∨ ∃ t, s = p ++ (word ++ t) ∧ splitWord word t = ps) := by
  induction s generalizing p with
  | nil =>
    obtain ⟨rfl, rfl⟩ := List.cons_eq_cons.1 h
    exact ⟨fun h => hne (List.infix_nil.1 h), .inl ⟨rfl, rfl⟩⟩
  | cons c s ih =>
    by_cases hstart : word <+: c :: s
    · obtain ⟨t, ht⟩ := hstart
      rw [← ht, splitWord_word_append hne] at h
      obtain ⟨rfl, rfl⟩ := List.cons_eq_cons.1 h
      exact ⟨fun h => hne (List.infix_nil.1 h), .inr ⟨t, ht.symm, rfl⟩⟩
    · rw [splitWord_cons_of_not_start hstart] at h
      obtain ⟨q, qs, hq⟩ := List.exists_cons_of_ne_nil (splitWord_ne_nil word s)
      rw [hq] at h
      obtain ⟨rfl, rfl⟩ := List.cons_eq_cons.1 h
      obtain ⟨hfree, hrest⟩ := ih hq
      refine ⟨?_, ?_⟩
      · -- The first part begins the text, so the word does not start in its first symbol either.
        rw [List.infix_cons_iff, not_or]
        refine ⟨fun h => hstart ?_, hfree⟩
        have hqs : q <+: s := by
          rcases hrest with ⟨-, rfl⟩ | ⟨t, rfl, -⟩
          · exact List.prefix_refl s
          · exact List.prefix_append q (word ++ t)
        exact h.trans (List.cons_prefix_cons.2 ⟨rfl, hqs⟩)
      · rcases hrest with ⟨rfl, rfl⟩ | ⟨t, rfl, rfl⟩
        · exact .inl ⟨rfl, rfl⟩
        · exact .inr ⟨t, rfl, rfl⟩

/-- A text does not have the word, or it has it first behind a part without it, and there follows a text
of which the same holds. -/
theorem cutting_induction {word : List α} (hne : word ≠ []) {motive : List α → Prop}
    (free : ∀ s, ¬ word <:+: s → motive s)
    (occurs : ∀ p t, ¬ word <:+: p → motive t → motive (p ++ (word ++ t))) (s : List α) :
    motive s := by
  obtain ⟨p, ps, hp⟩ := List.exists_cons_of_ne_nil (splitWord_ne_nil word s)
  obtain ⟨hfree, ⟨-, rfl⟩ | ⟨t, rfl, -⟩⟩ := splitWord_eq_cons hne hp
  · exact free s hfree
  · exact occurs p t hfree (cutting_induction hne free occurs t)
termination_by s.length
decreasing_by
  -- The rest behind the word is shorter, but no tail by one symbol: hence the length as measure.
  have hlen : 0 < word.length := List.length_pos_iff.2 hne
  subst_vars
  simp only [List.length_append]
  omega

theorem splitWord_append_tail {word b : List α} (hword : Borderless word) (hne : word ≠ [])
    (hb : ∀ c ∈ b, c ∉ word) (s : List α) :
    splitWord word (s ++ b) = extendLast b (splitWord word s) := by
  induction s using cutting_induction hne with
  | free s hs =>
    rw [splitWord_of_free hs, splitWord_of_free (by rwa [infix_append_iff_left hb hne])]
    rfl
  | occurs p t hp ih =>
    rw [List.append_assoc, List.append_assoc, splitWord_append hword hne hp,
      splitWord_append hword hne hp, ih, extendLast_cons b p (splitWord_ne_nil word t)]

theorem splitWord_append_word {word : List α} (hword : Borderless word) (hne : word ≠ [])
    (s t : List α) : splitWord word (s ++ (word ++ t)) = splitWord word s ++ splitWord word t := by
  induction s using cutting_induction hne with
  | free s hs =>
    rw [splitWord_append hword hne hs, splitWord_of_free hs, List.singleton_append]
  | occurs p s hp ih =>
    rw [List.append_assoc, List.append_assoc, splitWord_append hword hne hp, ih,
      splitWord_append hword hne hp, List.cons_append]

theorem joinWith_splitWord {word : List α} (hword : Borderless word) (hne : word ≠ [])
    (s : List α) : joinWith word (splitWord word s) = s := by
  induction s using cutting_induction hne with
  | free s hs => rw [splitWord_of_free hs, joinWith_singleton]
  | occurs p t hp ih =>
    have hjoin := joinWith_append word (List.cons_ne_nil p []) (splitWord_ne_nil word t)
    rw [joinWith_singleton, List.singleton_append, ih] at hjoin
    rw [splitWord_append hword hne hp, hjoin]

theorem not_infix_of_mem_splitWord {word : List α} (hword : Borderless word) (hne : word ≠ [])
    (s : List α) : ∀ p ∈ splitWord word s, ¬ word <:+: p := by
  induction s using cutting_induction hne with
  | free s hs => simpa [splitWord_of_free hs] using hs
  | occurs p t hp ih =>
    rw [splitWord_append hword hne hp]
    exact List.forall_mem_cons.2 ⟨hp, ih⟩

theorem splitWord_joinWith {word : List α} (hword : Borderless word) (hne : word ≠ [])
    {parts : List (List α)} (hparts : parts ≠ []) (hfree : ∀ p ∈ parts, ¬ word <:+: p) :
    splitWord word (joinWith word parts) = parts := by
  induction parts with
  | nil => exact absurd rfl hparts
  | cons p ps ih =>
    obtain ⟨hp, hps⟩ := List.forall_mem_cons.1 hfree
    rcases ps with _ | ⟨q, qs⟩
    · rw [joinWith_singleton, splitWord_of_free hp]
    · rw [joinWith_cons_cons, splitWord_append hword hne hp, ih (List.cons_ne_nil q qs) hps]

def OccursTwice (word s : List α) : Prop :=
  ∃ a b c, s = a ++ (word ++ (b ++ (word ++ c)))

theorem occursTwice_iff {word : List α} (hword : Borderless word) (hne : word ≠ []) (s : List α) :
    OccursTwice word s ↔ 2 < (splitWord word s).length := by
  constructor
  · rintro ⟨a, b, c, rfl⟩
    have hpos (t : List α) : 0 < (splitWord word t).length :=
      List.length_pos_iff.2 (splitWord_ne_nil word t)
    have ha := hpos a
    have hb := hpos b
    have hc := hpos c
    rw [splitWord_append_word hword hne, splitWord_append_word hword hne, List.length_append,
      List.length_append]
    omega
  · intro hlen
    obtain ⟨p, ps, hp⟩ := List.exists_cons_of_ne_nil (splitWord_ne_nil word s)
    obtain ⟨-, ⟨rfl, -⟩ | ⟨t, rfl, rfl⟩⟩ := splitWord_eq_cons hne hp
    · simp [hp] at hlen
    · obtain ⟨q, qs, hq⟩ := List.exists_cons_of_ne_nil (splitWord_ne_nil word t)
      obtain ⟨-, ⟨rfl, -⟩ | ⟨u, rfl, -⟩⟩ := splitWord_eq_cons hne hq
      · simp [hp, hq] at hlen
      · exact ⟨p, q, u, rfl⟩

theorem length_splitWord_append {word a : List α} (ha : ∀ c ∈ a, word.head? ≠ some c)
    (hne : word ≠ []) (s : List α) :
    (splitWord word (a ++ s)).length = (splitWord word s).length := by
  induction a with
  | nil => rfl
  | cons c a ih =>
    obtain ⟨hc, ha⟩ := List.forall_mem_cons.1 ha
    have hstart : ¬ word <+: c :: (a ++ s) := by
      obtain ⟨d, u, rfl⟩ := List.exists_cons_of_ne_nil hne
      intro h
      exact hc (congrArg some (List.cons_prefix_cons.1 h).1)
    rw [List.cons_append, splitWord_cons_of_not_start hstart, length_extendFirst c
      (splitWord_ne_nil word _), ih ha]

theorem splitOn_eq_splitWord (separator : α) (s : List α) :
    splitOn separator s = splitWord [separator] s := by
  induction s with
  | nil => rfl
  | cons c s ih =>
    by_cases h : c = separator
    · subst h
      have hword := splitWord_word_append (List.cons_ne_nil c []) s
      rw [List.singleton_append] at hword
      rw [hword, ← ih, splitOn, if_pos rfl]
    · have hstart : ¬ [separator] <+: c :: s := fun hp =>
        h (List.cons_prefix_cons.1 hp).1.symm
      rw [splitWord_cons_of_not_start hstart, ← ih, splitOn, if_neg h]

theorem splitOn_of_not_mem {separator : α} {s : List α} (h : separator ∉ s) :
    splitOn separator s = [s] := by
  rw [splitOn_eq_splitWord]
  exact splitWord_of_free fun hin => h (singleton_infix_iff.1 hin)

theorem splitOn_append_cons {separator : α} {s : List α} (h : separator ∉ s) (t : List α) :
    splitOn separator (s ++ separator :: t) = s :: splitOn separator t := by
  rw [splitOn_eq_splitWord, splitOn_eq_splitWord]
  exact splitWord_append (borderless_singleton separator) (List.cons_ne_nil separator [])
    (fun hin => h (singleton_infix_iff.1 hin)) t

theorem splitOn_flatMap_concat {separator : α} {rows : List (List α)} (h : ∀ row ∈ rows, separator ∉ row) :
    splitOn separator (rows.flatMap (· ++ [separator])) = rows ++ [[]] := by
  induction rows with
  | nil => rfl
  | cons row rows ih =>
    obtain ⟨hrow, hrows⟩ := List.forall_mem_cons.1 h
    rw [List.flatMap_cons, List.append_assoc, List.singleton_append, splitOn_append_cons hrow, ih hrows,
      List.cons_append]

theorem splitOn_eq_cons {separator : α} {s p : List α} {ps : List (List α)}
    (h : splitOn separator s = p :: ps) :
    separator ∉ p ∧
      (ps = [] ∧ s = p ∨ ∃ t, s = p ++ separator :: t ∧ splitOn separator t = ps) := by
  rw [splitOn_eq_splitWord] at h
  obtain ⟨hfree, hrest⟩ := splitWord_eq_cons (List.cons_ne_nil separator []) h
  refine ⟨fun hin => hfree (singleton_infix_iff.2 hin), hrest.imp_right ?_⟩
  rintro ⟨t, rfl, rfl⟩
  exact ⟨t, rfl, splitOn_eq_splitWord separator t⟩

end AddressLookup.Text
