import AddressLookup.Proofs.Address.Groups

/-! What the search looks at. Its candidates are a tiling of the text that can be described without a search:
each starts at the first place behind the one before where four dotted groups can start, and is as long as
they can be from there. The addresses are the candidates whose octets are all at most 255. -/

namespace AddressLookup.Address

open Text

structure Span where
  start : Nat
  stop : Nat

def Span.cut (text : List Char) (x : Span) : List Char :=
  (text.drop x.start).take (x.stop - x.start)

structure Span.Matches (text : List Char) (x : Span) : Prop where
  stop_le : x.stop ≤ text.length
  dotted : IsDotted 4 (x.cut text)

def Span.Overlaps (x y : Span) : Prop :=
  x.start < y.stop ∧ y.start < x.stop

/-- A sequence of pieces from a place on: the first starts at the first place where any match starts, and is
the longest that starts there; the others follow in the same way from its end on, until there are no more
matches. -/
inductive Scan (text : List Char) : Nat → List Span → Prop
  | done {place : Nat} (h : ∀ y : Span, y.Matches text → y.start < place) : Scan text place []
  | found {place : Nat} {x : Span} {rest : List Span} (hmatches : x.Matches text) (hplace : place ≤ x.start)
      (hfirst : ∀ y : Span, y.Matches text → place ≤ y.start → x.start ≤ y.start)
      (hlongest : ∀ y : Span, y.Matches text → y.start = x.start → y.stop ≤ x.stop)
      (hrest : Scan text x.stop rest) : Scan text place (x :: rest)

section

variable {text s : List Char} {x y : Span} {place : Nat} {spans others : List Span}

theorem Span.Matches.start_lt (h : x.Matches text) : x.start < x.stop := by
  have hne := List.length_pos_iff.2 h.dotted.ne_nil
  rw [Span.cut, List.length_take] at hne
  omega

theorem Scan.unique (h : Scan text place spans) (hothers : Scan text place others) : spans = others := by
  induction h generalizing others with
  | done hnone =>
    cases hothers with
    | done => rfl
    | found hmatches hplace => exact absurd (hnone _ hmatches) (Nat.not_lt.2 hplace)
  | @found place x rest hmatches hplace hfirst hlongest _ ih =>
    cases hothers with
    | done hnone => exact absurd (hnone _ hmatches) (Nat.not_lt.2 hplace)
    | @found _ y _ hmatches' hplace' hfirst' hlongest' hrest' =>
      have hstart : x.start = y.start :=
        Nat.le_antisymm (hfirst y hmatches' hplace') (hfirst' x hmatches hplace)
      have hstop : x.stop = y.stop :=
        Nat.le_antisymm (hlongest' x hmatches hstart) (hlongest y hmatches' hstart.symm)
      obtain ⟨start, stop⟩ := x
      obtain ⟨start', stop'⟩ := y
      obtain rfl : start = start' := hstart
      obtain rfl : stop = stop' := hstop
      rw [ih hrest']

theorem Scan.exists_overlaps (h : Scan text place spans) (hy : y.Matches text) (hplace : place ≤ y.start) :
    ∃ x ∈ spans, x.Overlaps y := by
  induction h with
  | done hnone => exact absurd (hnone y hy) (Nat.not_lt.2 hplace)
  | @found place x rest hmatches _ hfirst _ _ ih =>
    by_cases hinside : y.start < x.stop
    · have hstart := hfirst y hy hplace
      exact ⟨x, List.mem_cons_self, Nat.lt_of_le_of_lt hstart hy.start_lt, hinside⟩
    · obtain ⟨z, hz, hoverlaps⟩ := ih (Nat.le_of_not_lt hinside)
      exact ⟨z, List.mem_cons_of_mem x hz, hoverlaps⟩

theorem Scan.matches_of_mem (h : Scan text place spans) (hx : x ∈ spans) :
    x.Matches text ∧ ∀ y : Span, y.Matches text → y.start = x.start → y.stop ≤ x.stop := by
  induction h with
  | done => cases hx
  | found hmatches _ _ hlongest _ ih =>
    rcases List.mem_cons.1 hx with rfl | hx
    · exact ⟨hmatches, hlongest⟩
    · exact ih hx

theorem Scan.of_succ (h : Scan text (place + 1) spans) (hnone : ∀ y : Span, y.Matches text → y.start ≠ place) :
    Scan text place spans := by
  cases h with
  | done hlater =>
    refine .done fun y hy => ?_
    have hne := hnone y hy
    have hlt := hlater y hy
    omega
  | found hmatches hplace hfirst hlongest hrest =>
    refine .found hmatches (Nat.le_of_succ_le hplace) (fun y hy hle => hfirst y hy ?_) hlongest hrest
    exact Nat.lt_of_le_of_ne hle (hnone y hy).symm

theorem matches_iff : x.Matches text ↔
    ∃ n ≤ (text.drop x.start).length, x.stop = x.start + n ∧ IsDotted 4 ((text.drop x.start).take n) := by
  constructor
  · intro h
    have hlt := h.start_lt
    have hle := h.stop_le
    refine ⟨x.stop - x.start, ?_, by omega, h.dotted⟩
    rw [List.length_drop]
    omega
  · rintro ⟨n, hn, hstop, hdotted⟩
    have hpos := List.length_pos_iff.2 hdotted.ne_nil
    rw [List.length_take_of_le hn] at hpos
    rw [List.length_drop] at hn
    refine ⟨by omega, ?_⟩
    rwa [Span.cut, hstop, Nat.add_sub_cancel_left]

theorem longest_iff : (x.Matches text ∧ ∀ y : Span, y.Matches text → y.start = x.start → y.stop ≤ x.stop) ↔
    ∃ n, groupsLength? 4 (text.drop x.start) = some n ∧ x.stop = x.start + n := by
  constructor
  · rintro ⟨hmatches, hlongest⟩
    obtain ⟨n, hn, hstop, hdotted⟩ := matches_iff.1 hmatches
    refine ⟨n, groupsLength?_eq_some_iff.2 ⟨⟨hn, hdotted⟩, fun m hm hother => ?_⟩, hstop⟩
    have hle : x.start + m ≤ x.stop :=
      hlongest ⟨x.start, x.start + m⟩ (matches_iff.2 ⟨m, hm, rfl, hother⟩) rfl
    omega
  · rintro ⟨n, hn, hstop⟩
    obtain ⟨⟨hle, hdotted⟩, hmax⟩ := groupsLength?_eq_some_iff.1 hn
    refine ⟨matches_iff.2 ⟨n, hle, hstop, hdotted⟩, fun y hy hstart => ?_⟩
    obtain ⟨m, hm, hystop, hother⟩ := matches_iff.1 hy
    rw [hstart] at hm hother
    have hmn := hmax m hm hother
    omega

theorem exists_scan (before s : List Char) {skip : Nat} (hskip : skip ≤ s.length) :
    ∃ spans, Scan (before ++ s) (before.length + skip) spans ∧
      candidatesAfter skip s = spans.map (Span.cut (before ++ s)) := by
  induction s generalizing before skip with
  | nil =>
    refine ⟨[], .done fun y hy => ?_, by cases skip <;> rfl⟩
    have hlt := hy.start_lt
    have hle := hy.stop_le
    rw [List.append_nil] at hle
    omega
  | cons c s ih =>
    have hbehind {skip : Nat} (hskip : skip ≤ s.length) := ih (before ++ [c]) hskip
    simp only [List.append_assoc, List.singleton_append, List.length_append, List.length_singleton] at hbehind
    have hdrop : (before ++ c :: s).drop before.length = c :: s := List.drop_left
    cases skip with
    | succ skip =>
      obtain ⟨spans, hscan, hcut⟩ := hbehind (Nat.le_of_succ_le_succ hskip)
      exact ⟨spans, by rwa [Nat.add_assoc, Nat.add_comm 1 skip] at hscan, hcut⟩
    | zero =>
      rcases hn : groupsLength? 4 (c :: s) with _ | n
      · obtain ⟨spans, hscan, hcut⟩ := hbehind (Nat.zero_le _)
        refine ⟨spans, hscan.of_succ fun y hy hstart => ?_, (candidatesAfter_of_none hn).trans hcut⟩
        obtain ⟨n, hle, -, hdotted⟩ := matches_iff.1 hy
        rw [hstart, hdrop] at hle hdotted
        exact groupsLength?_eq_none_iff.1 hn n hle hdotted
      · have hle := groupsLength?_le hn
        rw [List.length_cons] at hle
        obtain ⟨spans, hscan, hcut⟩ := hbehind (show n - 1 ≤ s.length by omega)
        let x : Span := ⟨before.length, before.length + n⟩
        have hcandidate : x.cut (before ++ c :: s) = (c :: s).take n := by
          rw [Span.cut, hdrop, Nat.add_sub_cancel_left]
        obtain ⟨hmatches, hlongest⟩ := (longest_iff (x := x)).2 ⟨n, hdrop ▸ hn, rfl⟩
        have hlt : before.length < before.length + n := hmatches.start_lt
        have hstop : before.length + 1 + (n - 1) = x.stop := by
          show _ = before.length + n
          omega
        rw [hstop] at hscan
        refine ⟨x :: spans, .found hmatches (Nat.le_refl _) (fun y _ hle => hle) hlongest hscan, ?_⟩
        rw [candidatesAfter_of_some hn, hcut, List.map_cons, hcandidate]

/-- The candidates of a text are the only sequence of its matches of which each starts at the first place behind
the one before where a match starts and is the longest from there, up to where no more matches start. So each
match overlaps a candidate, and the addresses are the candidates with no octet above 255. -/
theorem extract_eq_scan (text : String) :
    ∃ spans, (Scan text.toList 0 spans ∧ ∀ others, Scan text.toList 0 others → others = spans) ∧
      candidates text.toList = spans.map (Span.cut text.toList) ∧
      (∀ x ∈ spans, (choices 4 (text.toList.drop x.start)).head? = some (x.stop - x.start)) ∧
      (∀ y : Span, y.Matches text.toList → ∃ x ∈ spans, x.Overlaps y) ∧
      extract text = ((spans.map (Span.cut text.toList)).filter fun candidate =>
        (splitOn '.' candidate).all fun octet => decimalValue octet ≤ 255).map String.ofList := by
  obtain ⟨spans, hscan, hcut⟩ := exists_scan [] text.toList (Nat.zero_le _)
  refine ⟨spans, ⟨hscan, fun others hothers => hothers.unique hscan⟩, hcut, fun x hx => ?_, fun y hy => ?_, ?_⟩
  · obtain ⟨n, hn, hstop⟩ := longest_iff.1 (hscan.matches_of_mem hx)
    rw [head?_choices, hstop, Nat.add_sub_cancel_left]
    exact hn
  · exact hscan.exists_overlaps hy (Nat.zero_le _)
  · rw [extract, extractChars, candidates, hcut]
    refine congrArg (List.map String.ofList) (List.filter_congr fun candidate hcandidate => ?_)
    obtain ⟨x, hx, rfl⟩ := List.mem_map.1 hcandidate
    have hdotted : IsDotted 4 (x.cut text.toList) := (hscan.matches_of_mem hx).1.dotted
    rw [Bool.eq_iff_iff, List.nil_append, isValidChars_iff, List.all_eq_true, and_iff_right hdotted]
    simp only [decide_eq_true_eq]

example : extract "1234.5.6.300.1.2.3.4.9.9" = ["1.2.3.4"] := by decide

end

end AddressLookup.Address
