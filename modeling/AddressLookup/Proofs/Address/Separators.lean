import AddressLookup.Address

/-! A character that is neither a digit nor a dot parts a text for the search: no candidate reaches over
it, and where the search goes on behind it does not depend on what was found in front of it. -/

namespace AddressLookup.Address

open Text

def IsSeparator (c : Char) : Prop :=
  c.isDigit = false ∧ c ≠ '.'

instance (c : Char) : Decidable (IsSeparator c) :=
  inferInstanceAs (Decidable (_ ∧ _))

theorem length_leadingDigits_le (limit : Nat) (s : List Char) :
    (leadingDigits limit s).length ≤ s.length := by
  have hdigits := (List.takeWhile_sublist (l := s.take limit) Char.isDigit).length_le
  exact Nat.le_trans hdigits (List.length_take_le' limit s)

theorem groupsLength?_le {groups n : Nat} {s : List Char} (h : groupsLength? groups s = some n) :
    n ≤ s.length := by
  induction groups generalizing s n with
  | zero => exact absurd h (by simp [groupsLength?])
  | succ groups ih =>
    have hdigits := length_leadingDigits_le 3 s
    simp only [groupsLength?] at h
    split at h
    · exact absurd h (by simp)
    · split at h
      · obtain rfl := Option.some.inj h
        exact hdigits
      · split at h
        · next rest hdrop =>
          obtain ⟨m, hm, rfl⟩ := Option.map_eq_some_iff.1 h
          have hrest := ih hm
          have hlength := congrArg List.length hdrop
          rw [List.length_drop, List.length_cons] at hlength
          omega
        · exact absurd h (by simp)

section

variable {c : Char}

theorem leadingDigits_append (hc : IsSeparator c) (limit : Nat) (s t : List Char) :
    leadingDigits limit (s ++ c :: t) = leadingDigits limit s := by
  simp only [leadingDigits]
  induction s generalizing limit with
  | nil => cases limit <;> simp [hc.1]
  | cons d s ih =>
    cases limit with
    | zero => rfl
    | succ limit =>
      rw [List.cons_append, List.take_succ_cons, List.take_succ_cons, List.takeWhile_cons,
        List.takeWhile_cons, ih]

theorem groupsLength?_append (hc : IsSeparator c) (groups : Nat) (s t : List Char) :
    groupsLength? groups (s ++ c :: t) = groupsLength? groups s := by
  induction groups generalizing s with
  | zero => rfl
  | succ groups ih =>
    have hdrop : (s ++ c :: t).drop (leadingDigits 3 s).length =
        s.drop (leadingDigits 3 s).length ++ c :: t :=
      List.drop_append_of_le_length (length_leadingDigits_le 3 s)
    simp only [groupsLength?, leadingDigits_append hc, hdrop]
    rcases s.drop (leadingDigits 3 s).length with _ | ⟨d, rest⟩
    · simp [hc.2]
    · by_cases hdot : d = '.'
      · subst hdot
        simp only [List.cons_append, ih rest]
      · simp [hdot]

theorem candidatesAfter_of_none {d : Char} {s : List Char} (h : groupsLength? 4 (d :: s) = none) :
    candidatesAfter 0 (d :: s) = candidatesAfter 0 s := by
  simp only [candidatesAfter, h]

theorem candidatesAfter_of_some {d : Char} {s : List Char} {n : Nat}
    (h : groupsLength? 4 (d :: s) = some n) :
    candidatesAfter 0 (d :: s) = (d :: s).take n :: candidatesAfter (n - 1) s := by
  simp only [candidatesAfter, h]

theorem candidatesAfter_append (hc : IsSeparator c) (t : List Char) {s : List Char} {skip : Nat}
    (hskip : skip ≤ s.length) :
    candidatesAfter skip (s ++ c :: t) = candidatesAfter skip s ++ candidates t := by
  induction s generalizing skip with
  | nil =>
    obtain rfl : skip = 0 := Nat.le_zero.1 hskip
    exact candidatesAfter_of_none (groupsLength?_append hc 4 [] t)
  | cons d s ih =>
    cases skip with
    | succ skip => exact ih (Nat.le_of_succ_le_succ hskip)
    | zero =>
      have hlength : groupsLength? 4 (d :: (s ++ c :: t)) = groupsLength? 4 (d :: s) :=
        groupsLength?_append hc 4 (d :: s) t
      rcases hn : groupsLength? 4 (d :: s) with _ | n
      · rw [List.cons_append, candidatesAfter_of_none (hlength.trans hn), candidatesAfter_of_none hn]
        exact ih (Nat.zero_le _)
      · -- The candidate ends in front of the separator, and so does what is passed over with it.
        have hle := groupsLength?_le hn
        have htake : (d :: (s ++ c :: t)).take n = (d :: s).take n :=
          List.take_append_of_le_length hle
        have hrest : n - 1 ≤ s.length := by
          rw [List.length_cons] at hle
          omega
        rw [List.cons_append, candidatesAfter_of_some (hlength.trans hn), candidatesAfter_of_some hn,
          htake, ih hrest, List.cons_append]

theorem extractChars_append (hc : IsSeparator c) (s t : List Char) :
    extractChars (s ++ c :: t) = extractChars s ++ extractChars t := by
  rw [extractChars, candidates, candidatesAfter_append hc t (Nat.zero_le _), List.filter_append]
  rfl

theorem extractChars_joinWith (hc : IsSeparator c) (lines : List (List Char)) :
    extractChars (joinWith [c] lines) = lines.flatMap extractChars := by
  induction lines with
  | nil => rfl
  | cons line lines ih =>
    rw [List.flatMap_cons, ← ih]
    rcases lines with _ | ⟨next, lines⟩
    · rw [joinWith_singleton]
      exact (List.append_nil _).symm
    · rw [joinWith_cons_cons, List.singleton_append, extractChars_append hc]

/-- The addresses around a separator are those in front of it and then those behind it, so a text has the
addresses of its lines, in their order and with repetitions. -/
theorem extract_append_separator (hc : IsSeparator c) (a b : String) :
    extract (a ++ String.singleton c ++ b) = extract a ++ extract b ∧
      extract a = (splitOn c a.toList).flatMap fun line => extract (String.ofList line) := by
  constructor
  · have htext : (a ++ String.singleton c ++ b).toList = a.toList ++ c :: b.toList := by simp
    rw [extract, htext, extractChars_append hc, List.map_append]
    rfl
  · have hlines := extractChars_joinWith hc (splitOn c a.toList)
    rw [joinWith_splitOn] at hlines
    rw [extract, hlines, List.map_flatMap]
    simp only [extract, String.toList_ofList]

/-- The line feed keeps `56` from the candidate in front of it; a candidate above 255 is passed over. -/
theorem extract_append_line_feed : IsSeparator '\n' ∧
    extract ("1.2.3.4" ++ String.singleton '\n' ++ "56.7.8.9 0.0.0.256") = ["1.2.3.4", "56.7.8.9"] := by
  have hc : IsSeparator '\n' := by decide
  have hparts := (extract_append_separator hc "1.2.3.4" "56.7.8.9 0.0.0.256").1
  exact ⟨hc, hparts.trans (by decide)⟩

end

end AddressLookup.Address
