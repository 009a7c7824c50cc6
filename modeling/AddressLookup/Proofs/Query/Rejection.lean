import AddressLookup.Proofs.Query.Exactness

/-! Which texts are refused as queries, and with which error. The word `GET` is looked for first, then a
second `WHERE`, then the first clause in text order that has a fault; what stands behind that clause is
never looked at. -/

namespace AddressLookup

open Text

/-- The operator of a clause: its symbol occurs, and none that is looked for before it does. -/
def Operator.Leads (o : Operator) (clause : List Char) : Prop :=
  o.symbol ∈ clause ∧ ∀ symbol ∈ o.reserved, symbol ≠ o.symbol → symbol ∉ clause

theorem Solid.not_blank_append {word : List Char} (hword : Solid word) (s t : List Char) :
    ¬ Blank (s ++ (word ++ t)) := by
  intro hblank
  obtain ⟨c, u, rfl⟩ := List.exists_cons_of_ne_nil hword.ne_nil
  have hc : isBlank c = true := (blank_append.1 (blank_append.1 hblank).2).1 c List.mem_cons_self
  rw [hword.not_blank c List.mem_cons_self] at hc
  exact Bool.noConfusion hc

namespace Query

def Misplaced (symbol : Char) (clause : List Char) : Prop :=
  2 ≤ clause.count symbol ∨ ∃ s t, clause = s ++ symbol :: t ∧ (Blank s ∨ Blank t)

/-- The error that a trimmed clause deserves; a clause without a fault deserves none. -/
inductive Fault (clause : List Char) : ParseError → Prop where
  | noOperator : (∀ o : Operator, o.symbol ∉ clause) → Fault clause (.noOperator (String.ofList clause))
  | malformed {o : Operator} : o.Leads clause → Misplaced o.symbol clause →
      Fault clause (.malformed (String.ofList clause))

theorem misplaced_append_cons {symbol : Char} {s t : List Char} (hs : symbol ∉ s) (ht : symbol ∉ t) :
    Misplaced symbol (s ++ symbol :: t) ↔ Blank s ∨ Blank t := by
  have hcount : (s ++ symbol :: t).count symbol = 1 := by
    simp [List.count_eq_zero_of_not_mem hs, List.count_eq_zero_of_not_mem ht]
  constructor
  · rintro (htwice | ⟨u, v, heq, hblank⟩)
    · omega
    · -- The symbol stands only once, so both cuts are the same.
      rw [heq, List.count_append, List.count_cons_self] at hcount
      have hu : symbol ∉ u := List.count_eq_zero.1 (by omega)
      have hv : symbol ∉ v := List.count_eq_zero.1 (by omega)
      obtain ⟨rfl, -, rfl⟩ := (List.append_cons_inj_of_notMem hs ht).1 heq
      exact hblank
  · intro hblank
    exact .inr ⟨s, t, rfl, hblank⟩

theorem leads_iff {clause : List Char} {o : Operator} :
    (Operator.searchOrder.find? fun o => clause.contains o.symbol) = some o ↔ o.Leads clause :=
  find?_operator_eq_some_iff

theorem conditionOf_eq_error_of_leads {clause : List Char} {o : Operator} (ho : o.Leads clause)
    {e : ParseError} : conditionOf clause = .error e ↔
      Misplaced o.symbol clause ∧ .malformed (String.ofList clause) = e := by
  simp only [conditionOf, leads_iff.2 ho]
  split
  · next u v huv =>
    obtain ⟨s, t, rfl, hs, ht, rfl, rfl⟩ := map_trim_splitOn_eq_pair_iff.1 huv
    rw [misplaced_append_cons hs ht, ← trim_eq_nil_iff, ← trim_eq_nil_iff]
    split
    · next hempty =>
      have hside : trim s = [] ∨ trim t = [] := by simpa using hempty
      rw [Except.error.injEq, and_iff_right hside]
    · next hempty =>
      have hside : ¬ (trim s = [] ∨ trim t = []) := by simpa using hempty
      exact iff_of_false (by simp) fun h => hside h.1
  · next hpair =>
    -- Cut at its first occurrence, the symbol must occur again: else there would be just two parts.
    obtain ⟨s, t, rfl, hs⟩ := List.eq_append_cons_of_mem ho.1
    have ht : o.symbol ∈ t := by
      by_contra ht
      exact hpair _ _ (map_trim_splitOn_eq_pair_iff.2 ⟨s, t, rfl, hs, ht, rfl, rfl⟩)
    have hmisplaced : Misplaced o.symbol (s ++ o.symbol :: t) := by
      have hpos := List.count_pos_iff.2 ht
      left
      rw [List.count_append, List.count_cons_self]
      omega
    rw [Except.error.injEq, and_iff_right hmisplaced]

theorem conditionOf_eq_error_iff {clause : List Char} {e : ParseError} :
    conditionOf clause = .error e ↔ Fault clause e := by
  rcases hfind : Operator.searchOrder.find? fun o => clause.contains o.symbol with _ | o
  · have hnone : ∀ o : Operator, o.symbol ∉ clause := by
      intro o ho
      have hmem : o ∈ Operator.searchOrder := by cases o <;> decide
      exact List.find?_eq_none.1 hfind o hmem (by simpa using ho)
    rw [conditionOf, hfind]
    constructor
    · intro h
      obtain rfl := Except.error.inj h
      exact .noOperator hnone
    · intro h
      cases h with
      | noOperator _ => rfl
      | malformed ho _ => exact absurd ho.1 (hnone _)
  · have ho := leads_iff.1 hfind
    rw [conditionOf_eq_error_of_leads ho]
    constructor
    · rintro ⟨hmisplaced, rfl⟩
      exact .malformed ho hmisplaced
    · intro h
      cases h with
      | noOperator hnone => exact absurd ho.1 (hnone o)
      | malformed ho' hmisplaced =>
        obtain rfl : o = _ := Option.some.inj (hfind.symm.trans (leads_iff.2 ho'))
        exact ⟨hmisplaced, rfl⟩

structure FirstFault (good : List (List Char)) (bad : List Char) (e : ParseError) : Prop where
  good : ∀ clause ∈ good, ∀ e, ¬ Fault (trim clause) e
  bad : Fault (trim bad) e

theorem conditionsOf_cons_of_error {clause : List Char} {clauses : List (List Char)} {e : ParseError}
    (h : conditionOf (trim clause) = .error e) : conditionsOf (clause :: clauses) = .error e := by
  rw [conditionsOf, h]

theorem conditionsOf_cons_of_ok {clause : List Char} {clauses : List (List Char)} {c : Condition}
    (h : conditionOf (trim clause) = .ok c) {e : ParseError} :
    conditionsOf (clause :: clauses) = .error e ↔ conditionsOf clauses = .error e := by
  rw [conditionsOf, h]
  rcases conditionsOf clauses with _ | cs <;> simp

theorem conditionsOf_eq_error_iff {clauses : List (List Char)} {e : ParseError} :
    conditionsOf clauses = .error e ↔
      ∃ good bad rest, clauses = good ++ bad :: rest ∧ FirstFault good bad e := by
  induction clauses with
  | nil => simp [conditionsOf]
  | cons clause clauses ih =>
    rcases hclause : conditionOf (trim clause) with e' | c
    · have hfault := conditionOf_eq_error_iff.1 hclause
      rw [conditionsOf_cons_of_error hclause]
      constructor
      · intro h
        obtain rfl := Except.error.inj h
        exact ⟨[], clause, clauses, rfl, by simp, hfault⟩
      · rintro ⟨_ | ⟨g, good⟩, bad, rest, heq, h⟩
        · obtain ⟨rfl, -⟩ := List.cons_eq_cons.1 heq
          have hbad := conditionOf_eq_error_iff.2 h.bad
          rw [hclause] at hbad
          rw [Except.error.inj hbad]
        · obtain ⟨rfl, -⟩ := List.cons_eq_cons.1 heq
          exact absurd hfault (h.good _ List.mem_cons_self e')
    · have hsound : ∀ e, ¬ Fault (trim clause) e := by
        intro e' hfault
        rw [conditionOf_eq_error_iff.2 hfault] at hclause
        exact absurd hclause (by simp)
      rw [conditionsOf_cons_of_ok hclause, ih]
      constructor
      · rintro ⟨good, bad, rest, rfl, h⟩
        exact ⟨clause :: good, bad, rest, rfl, List.forall_mem_cons.2 ⟨hsound, h.good⟩, h.bad⟩
      · rintro ⟨_ | ⟨g, good⟩, bad, rest, heq, h⟩
        · obtain ⟨rfl, -⟩ := List.cons_eq_cons.1 heq
          exact absurd h.bad (hsound e)
        · obtain ⟨rfl, rfl⟩ := List.cons_eq_cons.1 heq
          exact ⟨good, bad, rest, rfl, (List.forall_mem_cons.1 h.good).2, h.bad⟩

structure Clauses (body names : List Char) (clauses : List (List Char)) : Prop where
  body_eq : body = names ++ (whereWord ++ joinWith andWord clauses)
  free : ∀ clause ∈ clauses, ¬ andWord <:+: clause
  not_blank : ¬ Blank (joinWith andWord clauses)

theorem length_splitWord_getWord_append (body : List Char) :
    (splitWord whereWord (getWord ++ body)).length = (splitWord whereWord body).length :=
  length_splitWord_append (by simp [getWord, whereWord]) whereWord_solid.ne_nil body

theorem occursTwice_getWord_append (body : List Char) :
    OccursTwice whereWord (getWord ++ body) ↔ OccursTwice whereWord body := by
  rw [occursTwice_iff whereWord_borderless whereWord_solid.ne_nil,
    occursTwice_iff whereWord_borderless whereWord_solid.ne_nil, length_splitWord_getWord_append]

theorem not_occursTwice_of_free {s : List Char} (h : ¬ whereWord <:+: s) :
    ¬ OccursTwice whereWord s := by
  rintro ⟨a, b, c, rfl⟩
  exact h (List.infix_append' a whereWord _)

theorem not_occursTwice_append {s t : List Char} (hs : ¬ whereWord <:+: s) (ht : ¬ whereWord <:+: t) :
    ¬ OccursTwice whereWord (s ++ (whereWord ++ t)) := by
  rw [occursTwice_iff whereWord_borderless whereWord_solid.ne_nil, splitWord_whereWord_append hs,
    splitWord_of_free ht]
  simp

theorem free_of_not_occursTwice {s t : List Char}
    (h : ¬ OccursTwice whereWord (s ++ (whereWord ++ t))) :
    ¬ whereWord <:+: s ∧ ¬ whereWord <:+: t := by
  constructor
  · rintro ⟨a, b, rfl⟩
    exact h ⟨a, b, t, by simp⟩
  · rintro ⟨a, b, rfl⟩
    exact h ⟨s, a, b, by simp⟩

theorem parseBody_eq_error_of_not_blank {s t : List Char} (hs : ¬ whereWord <:+: s)
    (ht : ¬ whereWord <:+: t) (hblank : ¬ Blank t) {e : ParseError} :
    parseBody (s ++ (whereWord ++ t)) = .error e ↔ conditionsOf (splitWord andWord t) = .error e := by
  rw [parseBody_of_not_blank hs ht hblank]
  rcases conditionsOf (splitWord andWord t) with _ | cs <;> simp [Except.map]

theorem parseBody_eq_repeatedWhere_iff {body : List Char} :
    parseBody body = .error .repeatedWhere ↔ OccursTwice whereWord body := by
  rcases whereWord_cases body with hs | ⟨s, t, rfl, hs, ht⟩ | ⟨s, t, u, rfl, hs, ht⟩
  · rw [parseBody_of_free hs]
    exact iff_of_false (by simp) (not_occursTwice_of_free hs)
  · refine iff_of_false ?_ (not_occursTwice_append hs ht)
    by_cases hblank : Blank t
    · simp [parseBody_of_blank hs hblank]
    · rw [parseBody_eq_error_of_not_blank hs ht hblank, conditionsOf_eq_error_iff]
      rintro ⟨good, bad, rest, -, h⟩
      cases h.bad
  · rw [parseBody_of_two hs ht]
    exact iff_of_true rfl ⟨s, t, u, rfl⟩

theorem parseBody_eq_error_iff {body : List Char} (hone : ¬ OccursTwice whereWord body)
    {e : ParseError} : parseBody body = .error e ↔
      ∃ names good bad rest, Clauses body names (good ++ bad :: rest) ∧ FirstFault good bad e := by
  constructor
  · intro h
    rcases whereWord_cases body with hs | ⟨s, t, rfl, hs, ht⟩ | ⟨s, t, u, rfl, hs, ht⟩
    · rw [parseBody_of_free hs] at h
      exact absurd h (by simp)
    · by_cases hblank : Blank t
      · rw [parseBody_of_blank hs hblank] at h
        exact absurd h (by simp)
      · rw [parseBody_eq_error_of_not_blank hs ht hblank, conditionsOf_eq_error_iff] at h
        obtain ⟨good, bad, rest, hsplit, hfault⟩ := h
        have hjoin := joinWith_splitWord andWord_borderless andWord_solid.ne_nil t
        have hfree := not_infix_of_mem_splitWord andWord_borderless andWord_solid.ne_nil t
        rw [hsplit] at hjoin hfree
        exact ⟨s, good, bad, rest, ⟨by rw [hjoin], hfree, by rwa [hjoin]⟩, hfault⟩
    · exact absurd ⟨s, t, u, rfl⟩ hone
  · rintro ⟨names, good, bad, rest, ⟨rfl, hfree, hblank⟩, hfault⟩
    obtain ⟨hs, ht⟩ := free_of_not_occursTwice hone
    rw [parseBody_eq_error_of_not_blank hs ht hblank, conditionsOf_eq_error_iff,
      splitWord_joinWith andWord_borderless andWord_solid.ne_nil (by simp) hfree]
    exact ⟨good, bad, rest, rfl, hfault⟩

theorem parseBody_replace_rest {body names bad : List Char} {good rest : List (List Char)}
    {e : ParseError} (hone : ¬ OccursTwice whereWord body)
    (hclauses : Clauses body names (good ++ bad :: rest)) (hfault : FirstFault good bad e)
    {u : List Char} (hu : ¬ whereWord <:+: u) :
    parseBody (names ++ (whereWord ++ joinWith andWord (good ++ [bad, u]))) = .error e := by
  obtain ⟨rfl, hfree, -⟩ := hclauses
  obtain ⟨hs, ht⟩ := free_of_not_occursTwice hone
  rw [List.append_cons good bad rest] at hfree ht
  have hstart : ¬ whereWord <:+: joinWith andWord (good ++ [bad]) := by
    intro h
    refine ht (h.trans ?_)
    rcases rest with _ | ⟨next, rest⟩
    · exact ⟨[], [], by simp⟩
    · rw [joinWith_append andWord (by simp) (List.cons_ne_nil next rest)]
      exact (List.prefix_append _ _).isInfix
  have hjoin : joinWith andWord (good ++ [bad, u]) =
      joinWith andWord (good ++ [bad]) ++ (andWord ++ u) := by
    rw [List.append_cons good bad [u], joinWith_append andWord (by simp) (List.cons_ne_nil u []),
      joinWith_singleton]
  have hnot_blank := andWord_solid.not_blank_append (joinWith andWord (good ++ [bad])) u
  have hsplit : splitWord andWord (joinWith andWord (good ++ [bad]) ++ (andWord ++ u)) =
      good ++ bad :: splitWord andWord u := by
    rw [splitWord_append_word andWord_borderless andWord_solid.ne_nil,
      splitWord_joinWith andWord_borderless andWord_solid.ne_nil (by simp)
        fun clause hclause => hfree clause (List.mem_append_left rest hclause),
      ← List.append_cons]
  rw [hjoin, parseBody_eq_error_of_not_blank hs (not_whereWord_infix_append hstart hu) hnot_blank,
    conditionsOf_eq_error_iff, hsplit]
  exact ⟨good, bad, _, rfl, hfault⟩

theorem parseBody_of_bad {body names bad : List Char} {good rest : List (List Char)} {e : ParseError}
    (hone : ¬ OccursTwice whereWord body) (hclauses : Clauses body names (good ++ bad :: rest))
    (hfault : FirstFault good bad e) (hbad : trim bad ≠ []) :
    parseBody (['*', ' '] ++ (whereWord ++ ' ' :: trim bad)) = .error e := by
  obtain ⟨rfl, hfree, -⟩ := hclauses
  obtain ⟨-, ht⟩ := free_of_not_occursTwice hone
  have hin : bad ∈ good ++ bad :: rest := List.mem_append_right good List.mem_cons_self
  have hpad : Padded (trim bad) (' ' :: trim bad) := (padded_refl (trim bad)).append_left blank_space
  have htrim : trim (' ' :: trim bad) = trim bad := trim_eq_of_padded (trimmed_trim bad) hpad
  -- The clause has neither keyword, so it is the one clause behind the keyword before it.
  have hwhere : ¬ whereWord <:+: ' ' :: trim bad := by
    rw [hpad.infix_iff whereWord_solid.ne_nil whereWord_solid.not_blank]
    exact fun h => ht ((h.trans (padded_trim bad).isInfix).trans (infix_joinWith andWord hin))
  have hand : ¬ andWord <:+: ' ' :: trim bad := by
    rw [hpad.infix_iff andWord_solid.ne_nil andWord_solid.not_blank]
    exact fun h => hfree bad hin (h.trans (padded_trim bad).isInfix)
  have hnot_blank : ¬ Blank (' ' :: trim bad) := by
    rwa [← trim_eq_nil_iff, htrim]
  rw [parseBody_eq_error_of_not_blank (by decide) hwhere hnot_blank, conditionsOf_eq_error_iff,
    splitWord_of_free hand]
  exact ⟨[], _, [], rfl, by simp, by rw [htrim]; exact hfault.bad⟩

theorem parseBody_ne_missingGet (body : List Char) : parseBody body ≠ .error .missingGet := by
  intro h
  by_cases htwice : OccursTwice whereWord body
  · rw [parseBody_eq_repeatedWhere_iff.2 htwice] at h
    exact absurd h (by simp)
  · obtain ⟨names, good, bad, rest, -, hfault⟩ := (parseBody_eq_error_iff htwice).1 h
    cases hfault.bad

theorem parse_of_not_prefix {text : String} (h : ¬ getWord <+: trim text.toList) :
    parse text = .error .missingGet := by
  rw [parse, parseChars]
  rcases hbody : getWord.isPrefixOf? (trim text.toList) with _ | body
  · rfl
  · rw [isPrefixOf?_eq_some_iff] at hbody
    exact absurd ⟨body, hbody.symm⟩ h

theorem parse_of_trim_eq {text : String} {body : List Char} (h : trim text.toList = getWord ++ body) :
    parse text = parseBody body := by
  rw [parse, parseChars, isPrefixOf?_eq_some_iff.2 h]

theorem parse_ofList {p body : List Char} (hp : Blank p) (hbody : ¬ Blank body) :
    parse (String.ofList (p ++ (getWord ++ body))) = parseBody body := by
  rw [parse, String.toList_ofList, parseChars_append hp hbody]

def Refused (t : List Char) (e : ParseError) : Prop :=
  ∃ body names good bad rest, t = getWord ++ body ∧ Clauses body names (good ++ bad :: rest) ∧
    FirstFault good bad e

theorem refused_getWord_append {body : List Char} {e : ParseError} : Refused (getWord ++ body) e ↔
    ∃ names good bad rest, Clauses body names (good ++ bad :: rest) ∧ FirstFault good bad e := by
  constructor
  · rintro ⟨body', names, good, bad, rest, heq, h⟩
    obtain rfl := List.append_cancel_left heq
    exact ⟨names, good, bad, rest, h⟩
  · rintro ⟨names, good, bad, rest, h⟩
    exact ⟨body, names, good, bad, rest, rfl, h⟩

/-- A text is refused for the word `GET` it does not start with, else for a second `WHERE`, else for its
first clause with a fault, and for nothing else. Behind that clause any text without `WHERE` may stand
instead, and the clause alone is refused with the same error. -/
theorem parse_eq_error_iff (text : String) :
    let t := trim text.toList
    (parse text = .error .missingGet ↔ ¬ getWord <+: t) ∧
    (getWord <+: t →
      (parse text = .error .repeatedWhere ↔ OccursTwice whereWord t) ∧
      (¬ OccursTwice whereWord t →
        (∀ e, parse text = .error e ↔ Refused t e) ∧
        ((¬ ∃ e, Refused t e) → ∃ q, parse text = .ok q) ∧
        ∀ body names good bad rest e, t = getWord ++ body →
          Clauses body names (good ++ bad :: rest) → FirstFault good bad e →
          (∀ p u, Blank p → ¬ whereWord <:+: u → parse (String.ofList (p ++ (getWord ++
            (names ++ (whereWord ++ joinWith andWord (good ++ [bad, u])))))) = .error e) ∧
          (trim bad ≠ [] → parse ("GET * WHERE " ++ String.ofList (trim bad)) = .error e))) := by
  intro t
  refine ⟨⟨fun h hprefix => ?_, parse_of_not_prefix⟩, fun hprefix => ?_⟩
  · obtain ⟨body, hbody⟩ := hprefix
    rw [parse_of_trim_eq hbody.symm] at h
    exact parseBody_ne_missingGet body h
  · obtain ⟨body, hbody⟩ := hprefix
    rw [parse_of_trim_eq hbody.symm, ← hbody, occursTwice_getWord_append]
    refine ⟨parseBody_eq_repeatedWhere_iff, fun hone => ?_⟩
    have herror (e : ParseError) : parseBody body = .error e ↔ Refused (getWord ++ body) e := by
      rw [parseBody_eq_error_iff hone, refused_getWord_append]
    refine ⟨herror, fun hnone => ?_, ?_⟩
    · rcases hq : parseBody body with e | q
      · exact absurd ⟨e, (herror e).1 hq⟩ hnone
      · exact ⟨q, rfl⟩
    · rintro body' names good bad rest e heq hclauses hfault
      obtain rfl := List.append_cancel_left heq
      constructor
      · intro p u hp hu
        rw [parse_ofList hp (whereWord_solid.not_blank_append _ _)]
        exact parseBody_replace_rest hone hclauses hfault hu
      · intro hbad
        have htext : "GET * WHERE " ++ String.ofList (trim bad) =
            String.ofList ([] ++ (getWord ++ (['*', ' '] ++ (whereWord ++ ' ' :: trim bad)))) := by
          rw [← String.toList_inj, String.toList_append]
          simp only [String.toList_ofList]
          rfl
        rw [htext, parse_ofList blank_nil (whereWord_solid.not_blank_append _ _)]
        exact parseBody_of_bad hone hclauses hfault hbad

/-- A clause without an operator is reported, whatever clause comes next. -/
theorem parse_word_without_operator :
    parse "GET WHEREx" = .error (.noOperator "x") ∧ parse "GET WHERExAND=" = .error (.noOperator "x") ∧
      parse "GET * WHERE x" = .error (.noOperator "x") := by
  have htrim : trim "GET WHEREx".toList = getWord ++ (whereWord ++ ['x']) := by decide
  have hiff := parse_eq_error_iff "GET WHEREx"
  simp only [htrim] at hiff
  obtain ⟨-, hrest⟩ := hiff
  have hclauses : Clauses (whereWord ++ ['x']) [] [['x']] :=
    ⟨rfl, by decide, by decide⟩
  have hfault : FirstFault [] ['x'] (.noOperator "x") := by
    refine ⟨by simp, .noOperator fun o => ?_⟩
    cases o <;> decide
  have hone : ¬ OccursTwice whereWord (getWord ++ (whereWord ++ ['x'])) := by
    rw [occursTwice_iff whereWord_borderless whereWord_solid.ne_nil]
    decide
  obtain ⟨herror, -, hsame⟩ := (hrest (List.prefix_append _ _)).2 hone
  obtain ⟨hreplaced, halone⟩ := hsame _ [] [] ['x'] [] _ rfl hclauses hfault
  refine ⟨(herror _).2 ⟨_, [], [], ['x'], [], rfl, hclauses, hfault⟩, ?_, halone (by decide)⟩
  exact hreplaced [] ['='] (by decide) (by decide)

end Query

end AddressLookup
