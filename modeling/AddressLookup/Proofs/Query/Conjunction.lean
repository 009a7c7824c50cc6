import AddressLookup.Proofs.Query.Fusion
import AddressLookup.Proofs.Query.Pointwise
import AddressLookup.Proofs.Query.Rejection

/-! Clauses that are joined by the word `AND` in a text are conditions one after the other: the joined text
does to a dataset what the two texts do in turn, in whichever order they stand. -/

namespace AddressLookup.Query

open Text

theorem conditionsOf_append_eq_ok_iff {xs ys : List (List Char)} {cs : List Condition} :
    conditionsOf (xs ++ ys) = .ok cs ↔
      ∃ as bs, conditionsOf xs = .ok as ∧ conditionsOf ys = .ok bs ∧ cs = as ++ bs := by
  induction xs generalizing cs with
  | nil => simp [conditionsOf]
  | cons x xs ih =>
    simp only [List.cons_append, conditionsOf_cons_eq_ok_iff, ih]
    constructor
    · rintro ⟨d, _, hd, ⟨as, bs, has, hbs, rfl⟩, rfl⟩
      exact ⟨d :: as, bs, ⟨d, as, hd, has, rfl⟩, hbs, rfl⟩
    · rintro ⟨_, bs, ⟨d, as, hd, has, rfl⟩, hbs, rfl⟩
      exact ⟨d, as ++ bs, hd, ⟨as, bs, has, hbs, rfl⟩, rfl⟩

theorem conditionsOf_extendFirst {c : Char} (hc : isBlank c = true) {clauses : List (List Char)}
    (h : clauses ≠ []) : conditionsOf (extendFirst c clauses) = conditionsOf clauses := by
  obtain ⟨clause, clauses, rfl⟩ := List.exists_cons_of_ne_nil h
  have hblank : Blank [c] := by simpa [Blank] using hc
  have htrim : trim (c :: clause) = trim clause := trim_append_left hblank clause
  rw [extendFirst, conditionsOf, conditionsOf, htrim]

def clauseConditions (s : List Char) : Except ParseError (List Condition) :=
  conditionsOf (splitWord andWord s)

theorem clauseConditions_cons {c : Char} (hc : isBlank c = true) (s : List Char) :
    clauseConditions (c :: s) = clauseConditions s := by
  have hstart : ¬ andWord <+: c :: s := by
    intro h
    obtain rfl : 'A' = c := (List.cons_prefix_cons.1 h).1
    exact absurd hc (by decide)
  rw [clauseConditions, splitWord_cons_of_not_start hstart,
    conditionsOf_extendFirst hc (splitWord_ne_nil andWord s), ← clauseConditions]

theorem clauseConditions_append_blank {b : List Char} (hb : Blank b) (s : List Char) :
    clauseConditions (s ++ b) = clauseConditions s := by
  rw [clauseConditions, splitWord_append_tail andWord_borderless andWord_solid.ne_nil
    (hb.not_mem andWord_solid.not_blank), conditionsOf_extendLast hb, ← clauseConditions]

theorem clauseConditions_append_and_eq_ok_iff {s t : List Char} {cs : List Condition} :
    clauseConditions (s ++ (andWord ++ t)) = .ok cs ↔
      ∃ as bs, clauseConditions s = .ok as ∧ clauseConditions t = .ok bs ∧ cs = as ++ bs := by
  rw [clauseConditions, splitWord_append_word andWord_borderless andWord_solid.ne_nil,
    conditionsOf_append_eq_ok_iff]
  rfl

structure Plain (names clauses : String) : Prop where
  names_free : ¬ whereWord <:+: names.toList
  clauses_free : ¬ whereWord <:+: clauses.toList
  not_blank : ¬ Blank clauses.toList

theorem toList_where (names clauses : String) : ("GET " ++ names ++ " WHERE " ++ clauses).toList =
    [] ++ (getWord ++ ((names.toList ++ [' ']) ++ (whereWord ++ ' ' :: clauses.toList))) := by
  simp [getWord, whereWord]

section

variable {names clauses more : String}

theorem parse_where_eq_parseBody : parse ("GET " ++ names ++ " WHERE " ++ clauses) =
    parseBody ((names.toList ++ [' ']) ++ (whereWord ++ ' ' :: clauses.toList)) := by
  rw [parse, toList_where]
  exact parseChars_append blank_nil (whereWord_solid.not_blank_append _ _)

theorem whereWord_infix_space_cons (s : List Char) : whereWord <:+: ' ' :: s ↔ whereWord <:+: s :=
  infix_append_iff_right (blank_space.not_mem whereWord_solid.not_blank) whereWord_solid.ne_nil

theorem blank_space_cons (s : List Char) : Blank (' ' :: s) ↔ Blank s :=
  blank_append.trans (and_iff_right blank_space)

theorem Plain.parse_eq (h : Plain names clauses) :
    parse ("GET " ++ names ++ " WHERE " ++ clauses) =
      (clauseConditions clauses.toList).map fun cs => ⟨selectionOf names.toList, cs⟩ := by
  rw [parse_where_eq_parseBody, parseBody_of_not_blank, selectionOf_append_blank blank_space,
    ← clauseConditions, clauseConditions_cons rfl]
  · exact fun hin => h.names_free ((whereWord_infix_append_blank blank_space).1 hin)
  · exact fun hin => h.clauses_free ((whereWord_infix_space_cons _).1 hin)
  · exact fun hblank => h.not_blank ((blank_space_cons _).1 hblank)

theorem plain_of_parse {q : Query} (hblank : ¬ Blank clauses.toList)
    (h : parse ("GET " ++ names ++ " WHERE " ++ clauses) = .ok q) : Plain names clauses := by
  have hone : ¬ OccursTwice whereWord
      ((names.toList ++ [' ']) ++ (whereWord ++ ' ' :: clauses.toList)) := by
    intro htwice
    rw [parse_where_eq_parseBody, parseBody_eq_repeatedWhere_iff.2 htwice] at h
    cases h
  obtain ⟨hnames, hclauses⟩ := free_of_not_occursTwice hone
  exact ⟨fun hin => hnames ((whereWord_infix_append_blank blank_space).2 hin),
    fun hin => hclauses ((whereWord_infix_space_cons _).2 hin), hblank⟩

theorem exists_conditions_of_parse {q : Query} (hblank : ¬ Blank clauses.toList)
    (h : parse ("GET " ++ names ++ " WHERE " ++ clauses) = .ok q) :
    Plain names clauses ∧ ∃ cs, clauseConditions clauses.toList = .ok cs ∧
      q = ⟨selectionOf names.toList, cs⟩ := by
  have hplain := plain_of_parse hblank h
  refine ⟨hplain, ?_⟩
  rw [hplain.parse_eq] at h
  rcases hcs : clauseConditions clauses.toList with e | cs
  · rw [hcs] at h
    cases h
  · rw [hcs] at h
    exact ⟨cs, rfl, (Except.ok.inj h).symm⟩

theorem toList_and (clauses more : String) : (clauses ++ " AND " ++ more).toList =
    (clauses.toList ++ [' ']) ++ (andWord ++ ' ' :: more.toList) := by
  simp [andWord]

theorem Plain.and (h : Plain names clauses) (hmore : ¬ whereWord <:+: more.toList) :
    Plain names (clauses ++ " AND " ++ more) := by
  refine ⟨h.names_free, ?_, ?_⟩
  · rw [toList_and]
    exact not_whereWord_infix_append
      (fun hin => h.clauses_free ((whereWord_infix_append_blank blank_space).1 hin))
      fun hin => hmore ((whereWord_infix_space_cons _).1 hin)
  · rw [toList_and]
    exact andWord_solid.not_blank_append _ _

theorem Plain.parse_and (h : Plain names clauses) (hmore : ¬ whereWord <:+: more.toList)
    {cs ds : List Condition} (hcs : clauseConditions clauses.toList = .ok cs)
    (hds : clauseConditions more.toList = .ok ds) :
    parse ("GET " ++ names ++ " WHERE " ++ clauses ++ " AND " ++ more) =
      .ok ⟨selectionOf names.toList, cs ++ ds⟩ := by
  have hboth : clauseConditions (clauses ++ " AND " ++ more).toList = .ok (cs ++ ds) := by
    rw [toList_and, clauseConditions_append_and_eq_ok_iff, clauseConditions_append_blank blank_space,
      clauseConditions_cons rfl]
    exact ⟨cs, ds, hcs, hds, rfl⟩
  have htext : "GET " ++ names ++ " WHERE " ++ clauses ++ " AND " ++ more =
      "GET " ++ names ++ " WHERE " ++ (clauses ++ " AND " ++ more) := by
    simp only [String.append_assoc]
  rw [htext, (h.and hmore).parse_eq, hboth]
  rfl

end

theorem apply_append_comm (sel : Selection) (cs ds : List Condition) (d : Dataset) :
    apply ⟨sel, cs ++ ds⟩ d = apply ⟨sel, ds ++ cs⟩ d := by
  have hadmits : admits ⟨sel, cs ++ ds⟩ = admits ⟨sel, ds ++ cs⟩ := by
    funext r
    rw [admits_append, admits_append, Bool.and_comm]
  refine KeyMap.ext_get? fun key => ?_
  rw [get?_apply, get?_apply, hadmits]

theorem apply_apply_all (sel : Selection) (cs ds : List Condition) (d : Dataset) :
    apply ⟨sel, ds⟩ (apply ⟨.all, cs⟩ d) = apply ⟨sel, cs ++ ds⟩ d := by
  let first : Query := ⟨.all, cs⟩
  have hshown : ¬ ReadsHidden ⟨sel, ds⟩ first.selection := by
    rintro ⟨c, -, hhidden⟩
    exact Bool.noConfusion hhidden
  have hmeet : sel.IsMeet first.selection sel := fun name => (Bool.true_and (sel.selects name)).symm
  exact apply_apply_of_not_readsHidden hshown hmeet d

/-- Clauses joined by `AND` do what they do one after the other: the first of them over all fields, then the
second with the names. So they may change places. -/
theorem execute_and {names first second : String} (hfirst : ¬ Blank first.toList)
    (hsecond : ¬ Blank second.toList) {q₁ q₂ : Query} (h₁ : parse ("GET * WHERE " ++ first) = .ok q₁)
    (h₂ : parse ("GET " ++ names ++ " WHERE " ++ second) = .ok q₂) (d : Dataset) :
    ∃ between result, execute ("GET * WHERE " ++ first) d = .ok between ∧
      execute ("GET " ++ names ++ " WHERE " ++ second) between = .ok result ∧
      execute ("GET " ++ names ++ " WHERE " ++ first ++ " AND " ++ second) d = .ok result ∧
      execute ("GET " ++ names ++ " WHERE " ++ second ++ " AND " ++ first) d = .ok result := by
  have hall : parse ("GET " ++ "*" ++ " WHERE " ++ first) = .ok q₁ := h₁
  obtain ⟨hplain₁, cs, hcs, rfl⟩ := exists_conditions_of_parse hfirst hall
  obtain ⟨hplain₂, ds, hds, rfl⟩ := exists_conditions_of_parse hsecond h₂
  have hplain : Plain names first := ⟨hplain₂.names_free, hplain₁.clauses_free, hfirst⟩
  have hstar : selectionOf "*".toList = .all := by decide
  have hjoined := hplain.parse_and hplain₂.clauses_free hcs hds
  have hswapped := hplain₂.parse_and hplain₁.clauses_free hds hcs
  refine ⟨_, _, execute_of_parse h₁ d, execute_of_parse h₂ _, ?_, ?_⟩
  · rw [execute_of_parse hjoined, hstar, apply_apply_all]
  · rw [execute_of_parse hswapped, hstar, apply_apply_all, apply_append_comm]

/-- Clauses that begin and end in parts of the keyword, on a record that meets them all. -/
theorem execute_and_near_keywords :
    let first := "D>AN"
    let second := "ND<x ANDa=AN, A"
    let r : Record := ⟨[("D", "B"), ("ND", "m"), ("a", "A")], by decide⟩
    let d : Dataset := ⟨[("k", r)], List.pairwise_singleton _ _⟩
    ¬ Blank first.toList ∧ ¬ Blank second.toList ∧
      parse ("GET * WHERE " ++ first) = .ok ⟨.all, [⟨"D", .above "AN"⟩]⟩ ∧
      parse ("GET " ++ "a,*" ++ " WHERE " ++ second) =
        .ok ⟨.names ["a", "*"], [⟨"ND", .below "x"⟩, ⟨"a", .oneOf ["AN", "A"]⟩]⟩ ∧
      ∃ between result, execute ("GET * WHERE " ++ first) d = .ok between ∧
        execute ("GET " ++ "a,*" ++ " WHERE " ++ second) between = .ok result ∧
        execute ("GET " ++ "a,*" ++ " WHERE " ++ first ++ " AND " ++ second) d = .ok result ∧
        execute ("GET " ++ "a,*" ++ " WHERE " ++ second ++ " AND " ++ first) d = .ok result := by
  intro first second r d
  have hfirst : ¬ Blank first.toList := by decide
  have hsecond : ¬ Blank second.toList := by decide
  have h₁ : parse ("GET * WHERE " ++ first) = .ok ⟨.all, [⟨"D", .above "AN"⟩]⟩ := by decide
  have h₂ : parse ("GET " ++ "a,*" ++ " WHERE " ++ second) =
      .ok ⟨.names ["a", "*"], [⟨"ND", .below "x"⟩, ⟨"a", .oneOf ["AN", "A"]⟩]⟩ := by decide
  exact ⟨hfirst, hsecond, h₁, h₂, execute_and hfirst hsecond h₁ h₂ d⟩

end AddressLookup.Query
