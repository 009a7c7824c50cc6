import AddressLookup.Proofs.Address.Separators
import AddressLookup.Proofs.Text.Cutting
import AddressLookup.Proofs.Text.Digits
import Mathlib.Data.List.Infix
import Mathlib.Data.List.TakeWhile

/-! Groups of digits with dots between them. What the search takes at a start is as many of them as it looks
for, and the most that can be taken; a search that tried all ways one after the other would come to the same
first. Four groups are an address if none of them is above 255. -/

namespace AddressLookup.Address

open Text

def IsGroup (s : List Char) : Prop :=
  1 ≤ s.length ∧ s.length ≤ 3 ∧ ∀ c ∈ s, c.isDigit = true

def IsDotted (count : Nat) (s : List Char) : Prop :=
  ∃ groups, groups.length = count ∧ (∀ group ∈ groups, IsGroup group) ∧ s = joinWith ['.'] groups

section

variable {s t : List Char} {count n : Nat}

theorem isDotted_one_iff : IsDotted 1 s ↔ IsGroup s := by
  constructor
  · rintro ⟨groups, hone, hgroups, rfl⟩
    obtain ⟨group, rfl⟩ := List.length_eq_one_iff.1 hone
    rw [joinWith_singleton]
    exact hgroups group (List.mem_singleton_self group)
  · intro hs
    exact ⟨[s], rfl, fun group hgroup => List.mem_singleton.1 hgroup ▸ hs, (joinWith_singleton _ _).symm⟩

theorem isDotted_succ_iff : IsDotted (count + 2) s ↔
    ∃ group rest, IsGroup group ∧ IsDotted (count + 1) rest ∧ s = group ++ '.' :: rest := by
  constructor
  · rintro ⟨groups, hcount, hgroups, rfl⟩
    rcases groups with _ | ⟨group, _ | ⟨next, groups⟩⟩
    · cases hcount
    · cases hcount
    · obtain ⟨hgroup, hrest⟩ := List.forall_mem_cons.1 hgroups
      refine ⟨group, joinWith ['.'] (next :: groups), hgroup, ⟨_, Nat.succ.inj hcount, hrest, rfl⟩, ?_⟩
      rw [joinWith_cons_cons, List.singleton_append]
  · rintro ⟨group, rest, hgroup, ⟨groups, hcount, hrest, rfl⟩, rfl⟩
    obtain ⟨next, groups, rfl⟩ := List.exists_cons_of_length_eq_add_one hcount
    refine ⟨group :: next :: groups, congrArg Nat.succ hcount, List.forall_mem_cons.2 ⟨hgroup, hrest⟩, ?_⟩
    rw [joinWith_cons_cons, List.singleton_append]

theorem IsDotted.ne_nil (h : IsDotted (count + 1) s) : s ≠ [] := by
  rcases count with _ | count
  · exact List.ne_nil_of_length_pos (isDotted_one_iff.1 h).1
  · obtain ⟨group, rest, -, -, rfl⟩ := isDotted_succ_iff.1 h
    exact List.append_ne_nil_of_right_ne_nil _ (List.cons_ne_nil _ _)

theorem IsDotted.forall_mem (h : IsDotted (count + 1) s) :
    ∀ c ∈ s, c.isDigit = true ∨ c = '.' := by
  induction count generalizing s with
  | zero => exact fun c hc => .inl ((isDotted_one_iff.1 h).2.2 c hc)
  | succ count ih =>
    obtain ⟨group, rest, hgroup, hrest, rfl⟩ := isDotted_succ_iff.1 h
    intro c hc
    rcases List.mem_append.1 hc with hc | hc
    · exact .inl (hgroup.2.2 c hc)
    · rcases List.mem_cons.1 hc with rfl | hc
      · exact .inr rfl
      · exact ih hrest c hc

theorem leadingDigits_isPrefix (limit : Nat) (s : List Char) : leadingDigits limit s <+: s :=
  (List.takeWhile_prefix Char.isDigit).trans (List.take_prefix limit s)

theorem isGroup_leadingDigits (h : (leadingDigits 3 s).isEmpty = false) : IsGroup (leadingDigits 3 s) := by
  refine ⟨List.length_pos_iff.2 (List.isEmpty_eq_false_iff.1 h), ?_, fun c hc => ?_⟩
  · have hdigits := (List.takeWhile_prefix (l := s.take 3) Char.isDigit).length_le
    exact Nat.le_trans hdigits (List.length_take_le 3 s)
  · exact List.mem_takeWhile_imp hc

theorem leadingDigits_run {limit : Nat} {s rest : List Char} (hlength : s.length ≤ limit)
    (hdigits : ∀ c ∈ s, c.isDigit = true) (hrest : StopsRun Char.isDigit rest) :
    leadingDigits limit (s ++ rest) = s := by
  have htaken : StopsRun Char.isDigit (rest.take (limit - s.length)) := by
    intro c hc
    rw [List.head?_take] at hc
    split at hc
    · cases hc
    · exact hrest c hc
  rw [leadingDigits, List.take_append, List.take_of_length_le hlength, takeWhile_run hdigits htaken]

theorem IsGroup.prefix_leadingDigits (h : IsGroup s) (t : List Char) : s <+: leadingDigits 3 (s ++ t) := by
  rw [leadingDigits, List.take_append, List.take_of_length_le h.2.1, List.takeWhile_append_of_pos h.2.2]
  exact List.prefix_append s _

theorem isDotted_of_groupsLength? (h : groupsLength? (count + 1) s = some n) :
    IsDotted (count + 1) (s.take n) := by
  induction count generalizing s n with
  | zero =>
    simp only [groupsLength?] at h
    split at h
    · cases h
    · next hne =>
      obtain rfl := Option.some.inj h
      rw [← List.prefix_iff_eq_take.1 (leadingDigits_isPrefix 3 s), isDotted_one_iff]
      exact isGroup_leadingDigits (Bool.not_eq_true _ ▸ hne)
  | succ count ih =>
    rw [groupsLength?] at h
    split at h
    · cases h
    · next hne =>
      rw [if_neg (Nat.succ_ne_zero count)] at h
      split at h
      · next rest hdrop =>
        obtain ⟨m, hm, rfl⟩ := Option.map_eq_some_iff.1 h
        refine isDotted_succ_iff.2 ⟨_, _, isGroup_leadingDigits (Bool.not_eq_true _ ▸ hne), ih hm, ?_⟩
        have hsplit := List.prefix_iff_eq_append.1 (leadingDigits_isPrefix 3 s)
        rw [hdrop] at hsplit
        calc s.take ((leadingDigits 3 s).length + 1 + m)
            = (leadingDigits 3 s ++ '.' :: rest).take ((leadingDigits 3 s).length + 1 + m) := by rw [hsplit]
          _ = leadingDigits 3 s ++ '.' :: rest.take m := by
            rw [Nat.add_assoc, List.take_length_add_append, Nat.add_comm 1 m, List.take_succ_cons]
      · cases h

theorem exists_groupsLength?_of_isDotted (h : IsDotted (count + 1) s) (t : List Char) :
    ∃ n, groupsLength? (count + 1) (s ++ t) = some n ∧ s.length ≤ n := by
  induction count generalizing s with
  | zero =>
    have hgroup := isDotted_one_iff.1 h
    have hlength := (hgroup.prefix_leadingDigits t).length_le
    have hne : (leadingDigits 3 (s ++ t)).isEmpty = false := by
      have hpos := hgroup.1
      exact List.isEmpty_eq_false_iff.2 (List.ne_nil_of_length_pos (by omega))
    refine ⟨(leadingDigits 3 (s ++ t)).length, ?_, hlength⟩
    simp [groupsLength?, hne]
  | succ count ih =>
    obtain ⟨group, rest, hgroup, hrest, rfl⟩ := isDotted_succ_iff.1 h
    obtain ⟨n, hn, hle⟩ := ih hrest
    -- A dot follows the group, so no more and no fewer of its digits can be taken.
    have htaken : leadingDigits 3 (group ++ '.' :: (rest ++ t)) = group :=
      leadingDigits_run hgroup.2.1 hgroup.2.2 (stopsRun_cons.2 rfl)
    have hne : group.isEmpty = false := List.isEmpty_eq_false_iff.2 (List.ne_nil_of_length_pos hgroup.1)
    refine ⟨group.length + 1 + n, ?_, ?_⟩
    · rw [List.append_assoc, List.cons_append, groupsLength?]
      simp [htaken, hne, hn]
    · rw [List.length_append, List.length_cons]
      omega

theorem groupsLength?_eq_some_iff : groupsLength? (count + 1) s = some n ↔
    (n ≤ s.length ∧ IsDotted (count + 1) (s.take n)) ∧
      ∀ m ≤ s.length, IsDotted (count + 1) (s.take m) → m ≤ n := by
  have hlongest {m : Nat} (hm : m ≤ s.length) (hdotted : IsDotted (count + 1) (s.take m)) :
      ∃ k, groupsLength? (count + 1) s = some k ∧ m ≤ k := by
    have hfound := exists_groupsLength?_of_isDotted hdotted (s.drop m)
    rwa [List.take_append_drop, List.length_take_of_le hm] at hfound
  constructor
  · intro h
    refine ⟨⟨groupsLength?_le h, isDotted_of_groupsLength? h⟩, fun m hm hdotted => ?_⟩
    obtain ⟨k, hk, hle⟩ := hlongest hm hdotted
    rw [h] at hk
    exact Option.some.inj hk ▸ hle
  · rintro ⟨⟨hle, hdotted⟩, hmax⟩
    obtain ⟨k, hk, hnk⟩ := hlongest hle hdotted
    have hkn := hmax k (groupsLength?_le hk) (isDotted_of_groupsLength? hk)
    rw [hk, Nat.le_antisymm hkn hnk]

theorem groupsLength?_eq_none_iff : groupsLength? (count + 1) s = none ↔
    ∀ m ≤ s.length, ¬ IsDotted (count + 1) (s.take m) := by
  constructor
  · intro h m hm hdotted
    obtain ⟨k, hk, -⟩ := exists_groupsLength?_of_isDotted hdotted (s.drop m)
    rw [List.take_append_drop, h] at hk
    cases hk
  · intro h
    rcases hn : groupsLength? (count + 1) s with _ | n
    · rfl
    · exact absurd (isDotted_of_groupsLength? hn) (h n (groupsLength?_le hn))

end

def groupChoices (s : List Char) : List Nat :=
  [3, 2, 1].filter fun n => n ≤ s.length && (s.take n).all Char.isDigit

/-- The lengths of the dotted groups at the start of a text, in the order in which a greedy search that turns
back from where it cannot go on comes to them. -/
def choices : Nat → List Char → List Nat
  | 0, _ => []
  | 1, s => groupChoices s
  | count + 2, s => (groupChoices s).flatMap fun n =>
    match s.drop n with
    | '.' :: rest => (choices (count + 1) rest).map (n + 1 + ·)
    | _ => []

section

variable {s : List Char} {n : Nat}

theorem le_leadingDigits_iff (hpos : 1 ≤ n) (hthree : n ≤ 3) : n ≤ (leadingDigits 3 s).length ↔
    n ≤ s.length ∧ ∀ c ∈ s.take n, c.isDigit = true := by
  have hprefix := leadingDigits_isPrefix 3 s
  constructor
  · intro h
    refine ⟨Nat.le_trans h hprefix.length_le, fun c hc => ?_⟩
    have htake : s.take n <+: leadingDigits 3 s :=
      List.prefix_of_prefix_length_le (List.take_prefix n s) hprefix (Nat.le_trans (List.length_take_le n s) h)
    exact List.mem_takeWhile_imp (htake.subset hc)
  · rintro ⟨hlength, hdigits⟩
    have hgroup : IsGroup (s.take n) := by
      rw [IsGroup, List.length_take_of_le hlength]
      exact ⟨hpos, hthree, hdigits⟩
    have hle := (hgroup.prefix_leadingDigits (s.drop n)).length_le
    rwa [List.take_append_drop, List.length_take_of_le hlength] at hle

theorem groupChoices_eq (s : List Char) :
    groupChoices s = [3, 2, 1].filter fun n => n ≤ (leadingDigits 3 s).length := by
  refine List.filter_congr fun n hn => ?_
  have hbounds : 1 ≤ n ∧ n ≤ 3 := by
    simp only [List.mem_cons, List.not_mem_nil, or_false] at hn
    omega
  have hiff := le_leadingDigits_iff (s := s) hbounds.1 hbounds.2
  rw [← List.all_eq_true] at hiff
  rw [Bool.eq_iff_iff, Bool.and_eq_true, decide_eq_true_eq, decide_eq_true_eq, hiff]

theorem groupChoices_cases (s : List Char) :
    (leadingDigits 3 s).isEmpty = true ∧ groupChoices s = [] ∨
      (leadingDigits 3 s).isEmpty = false ∧ ∃ fewer, groupChoices s = (leadingDigits 3 s).length :: fewer ∧
        ∀ n ∈ fewer, n < (leadingDigits 3 s).length := by
  have hle : (leadingDigits 3 s).length ≤ 3 :=
    Nat.le_trans (List.takeWhile_prefix Char.isDigit).length_le (List.length_take_le 3 s)
  rw [groupChoices_eq, List.isEmpty_eq_false_iff, ← List.length_pos_iff, List.isEmpty_iff_length_eq_zero]
  generalize (leadingDigits 3 s).length = d at hle
  obtain rfl | rfl | rfl | rfl : d = 0 ∨ d = 1 ∨ d = 2 ∨ d = 3 := by omega
  · exact .inl ⟨rfl, rfl⟩
  · exact .inr ⟨by decide, [], rfl, by decide⟩
  · exact .inr ⟨by decide, [1], rfl, by decide⟩
  · exact .inr ⟨by decide, [2, 1], rfl, by decide⟩

theorem ne_dot_of_lt_leadingDigits (h : n < (leadingDigits 3 s).length) (rest : List Char) :
    s.drop n ≠ '.' :: rest := by
  intro hdrop
  have hsplit := List.prefix_iff_eq_append.1 (leadingDigits_isPrefix 3 s)
  rw [← hsplit, List.drop_append_of_le_length (Nat.le_of_lt h), List.drop_eq_getElem_cons h,
    List.cons_append] at hdrop
  have hdigit := List.mem_takeWhile_imp (List.getElem_mem h)
  rw [(List.cons.inj hdrop).1] at hdigit
  exact absurd hdigit (by decide)

/-- The search takes what a greedy search with turning back would come to first. -/
theorem head?_choices (count : Nat) (s : List Char) :
    (choices (count + 1) s).head? = groupsLength? (count + 1) s := by
  induction count generalizing s with
  | zero =>
    rw [choices, groupsLength?]
    rcases groupChoices_cases s with ⟨hempty, hchoices⟩ | ⟨hne, fewer, hchoices, -⟩
    · simp [hempty, hchoices]
    · simp [hne, hchoices]
  | succ count ih =>
    rw [choices, groupsLength?]
    rcases groupChoices_cases s with ⟨hempty, hchoices⟩ | ⟨hne, fewer, hchoices, hfewer⟩
    · simp [hempty, hchoices]
    · -- With fewer digits than there are, no dot can follow.
      have hdead : (fewer.flatMap fun n =>
          match s.drop n with
          | '.' :: rest => (choices (count + 1) rest).map (n + 1 + ·)
          | _ => []) = [] := by
        refine List.flatMap_eq_nil_iff.2 fun n hn => ?_
        split
        · next rest hdot => exact absurd hdot (ne_dot_of_lt_leadingDigits (hfewer n hn) rest)
        · rfl
      rw [hchoices, List.flatMap_cons, hdead, List.append_nil, hne, if_neg Bool.false_ne_true,
        if_neg (Nat.succ_ne_zero count)]
      rcases s.drop (leadingDigits 3 s).length with _ | ⟨d, rest⟩
      · rfl
      · by_cases hdot : d = '.'
        · subst hdot
          simp only [List.head?_map, ih]
        · simp [hdot]

end

section

variable {s : List Char}

theorem isDotted_iff_splitOn {count : Nat} : IsDotted (count + 1) s ↔
    (splitOn '.' s).length = count + 1 ∧ ∀ octet ∈ splitOn '.' s, IsGroup octet := by
  constructor
  · rintro ⟨groups, hcount, hgroups, rfl⟩
    have hne : groups ≠ [] := List.ne_nil_of_length_eq_add_one hcount
    have hfree : ∀ group ∈ groups, ¬ ['.'] <:+: group := by
      intro group hgroup hdot
      exact absurd ((hgroups group hgroup).2.2 '.' (singleton_infix_iff.1 hdot)) (by decide)
    rw [splitOn_eq_splitWord, splitWord_joinWith (borderless_singleton '.') (List.cons_ne_nil _ _) hne hfree]
    exact ⟨hcount, hgroups⟩
  · rintro ⟨hcount, hgroups⟩
    exact ⟨splitOn '.' s, hcount, hgroups, (joinWith_splitOn '.' s).symm⟩

theorem isOctet_iff : isOctet s = true ↔ IsGroup s ∧ decimalValue s ≤ 255 := by
  simp [isOctet, IsGroup, and_assoc]

theorem isValidChars_iff_splitOn : isValidChars s = true ↔
    (splitOn '.' s).length = 4 ∧ ∀ octet ∈ splitOn '.' s, isOctet octet = true := by
  rw [isValidChars]
  split
  · next a b c d hparts => simp [hparts, and_assoc]
  · next hother =>
    refine iff_of_false Bool.false_ne_true fun h => ?_
    obtain ⟨a, b, c, d, hparts⟩ := List.length_eq_four.1 h.1
    exact hother a b c d hparts

theorem isValidChars_iff : isValidChars s = true ↔
    IsDotted 4 s ∧ ∀ octet ∈ splitOn '.' s, decimalValue octet ≤ 255 := by
  simp only [isValidChars_iff_splitOn, isDotted_iff_splitOn, isOctet_iff, forall_and, and_assoc]

theorem not_mem_of_isValid {key : String} (h : isValid key = true) {c : Char} (hdigit : c.isDigit = false)
    (hdot : c ≠ '.') : c ∉ key.toList := by
  intro hc
  rcases (isValidChars_iff.1 h).1.forall_mem c hc with hd | hd
  · rw [hdigit] at hd
    cases hd
  · exact hdot hd

end

end AddressLookup.Address
