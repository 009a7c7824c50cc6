import AddressLookup.Proofs.Query.Exactness

/-! The canonical text of every query that can be read is read as that query again, but for the query for
a nameless field, whose canonical text is no more than the word `GET` and a space. -/

namespace AddressLookup

open Text

theorem listing_cons (v w : String) (vs : List String) :
    listing (v :: w :: vs) = v.toList ++ ',' :: ([' '] ++ listing (w :: vs)) := by
  simp [listing, joinWith, List.intercalate]

theorem listed_listing {vs : List String} (h : vs ≠ []) : Listed vs (listing vs) := by
  induction vs with
  | nil => exact absurd rfl h
  | cons v vs ih =>
    cases vs with
    | nil =>
      rw [show listing [v] = v.toList by simp [listing, joinWith, List.intercalate]]
      exact .one (padded_refl v.toList)
    | cons w vs =>
      rw [listing_cons]
      have hrest := (ih (List.cons_ne_nil w vs)).pad blank_space blank_nil
      rw [List.append_nil] at hrest
      exact .cons (padded_refl v.toList) hrest

theorem Selection.layout_chars {sel : Selection} (h : sel.WellFormed) : sel.Layout sel.chars := by
  cases sel with
  | all => exact .star (padded_refl ['*'])
  | names ns => exact .names (listed_listing h.1)

theorem Selection.Layout.append_blank {sel : Selection} {s b : List Char} (h : sel.Layout s)
    (hb : Blank b) : sel.Layout (s ++ b) := by
  cases h with
  | star hpad => exact .star (hpad.append_right hb)
  | starFirst hpad hfree =>
    rw [List.append_assoc, List.cons_append]
    exact .starFirst hpad (by rwa [Query.whereWord_infix_append_blank hb])
  | names hlisted =>
    have hpad := hlisted.pad blank_nil hb
    exact .names hpad

theorem Predicate.layout_operand {p : Predicate} (h : p.WellFormed) {a b : List Char} (ha : Blank a)
    (hb : Blank b) : p.Layout (a ++ (p.operand ++ b)) := by
  cases p with
  | oneOf values => exact (listed_listing h.2.1).pad ha hb
  | above bound => exact ⟨a, b, ha, hb, rfl⟩
  | below bound => exact ⟨a, b, ha, hb, rfl⟩

theorem Condition.layout_chars {c : Condition} (h : c.WellFormed) {a b : List Char} (ha : Blank a)
    (hb : Blank b) : c.Layout (a ++ (c.chars ++ b)) := by
  have hfield : Padded c.field.toList (a ++ (c.field.toList ++ [' '])) := ⟨a, [' '], ha, blank_space, rfl⟩
  have hlayout := Condition.Layout.mk hfield (Predicate.layout_operand h.predicate blank_space hb)
  simpa [Condition.chars] using hlayout

namespace Query

theorem clauseLayout_join {c : Condition} {cs : List Condition} (h : ∀ d ∈ c :: cs, d.WellFormed)
    {a : List Char} (ha : Blank a) : ClauseLayout (c :: cs)
      (a ++ joinWith ([' '] ++ andWord ++ [' ']) ((c :: cs).map Condition.chars)) := by
  induction cs generalizing c a with
  | nil =>
    have hlayout := Condition.layout_chars (h c List.mem_cons_self) ha blank_nil
    rw [List.append_nil] at hlayout
    have hjoin : joinWith ([' '] ++ andWord ++ [' ']) ([c].map Condition.chars) = c.chars := by
      simp [joinWith, List.intercalate]
    rw [hjoin]
    exact .one hlayout
  | cons d cs ih =>
    obtain ⟨hc, hcs⟩ := List.forall_mem_cons.1 h
    have hlayout := ClauseLayout.cons (Condition.layout_chars hc ha blank_space) (ih hcs blank_space)
    simpa [joinWith, List.intercalate] using hlayout

theorem bodyLayout_chars {q : Query} (h : q.WellFormed) :
    q.BodyLayout (q.selection.chars ++ conditionChars q.conditions) := by
  obtain ⟨sel, cs⟩ := q
  have hsel := Selection.layout_chars h.selection
  cases cs with
  | nil =>
    rw [conditionChars, List.append_nil]
    exact .selection hsel
  | cons c cs =>
    have hlayout := BodyLayout.clauses (hsel.append_blank blank_space)
      (clauseLayout_join h.conditions blank_space)
    simpa [conditionChars] using hlayout

/-- The canonical text of a query that was read gives the query back, with one exception. -/
theorem parse_text_of_parse {text : String} {q : Query} (h : parse text = .ok q) :
    parse q.text = if q = bare then .error .missingGet else .ok q := by
  obtain ⟨p, body, -, -, -, hq⟩ := exists_body_of_parseChars h
  obtain ⟨hwell, -⟩ := bodyLayout_of_parseBody hq
  split
  · next hbare =>
    subst hbare
    decide
  · next hbare =>
    have hlayout := bodyLayout_chars hwell
    have hchars : q.text.toList = [] ++ (getWord ++ (q.selection.chars ++ conditionChars q.conditions)) := by
      rw [Query.text, String.toList_ofList, Query.chars, List.append_assoc, List.nil_append]
    rw [parse, hchars]
    exact parseChars_of_bodyLayout hwell blank_nil hlayout
      fun hblank => hbare (eq_bare_of_blank hwell hlayout hblank)

/-- Keywords without space around them, empty names and values, and an operator inside a field. -/
theorem parse_text_of_parse_glued :
    let q : Query := ⟨.names ["a", "", "b"], [⟨"x>y", .oneOf ["", "1"]⟩, ⟨"z", .below "0"⟩]⟩
    parse "GET a,,bWHEREx>y=,1ANDz<0" = .ok q ∧ parse q.text = .ok q := by
  intro q
  have h : parse "GET a,,bWHEREx>y=,1ANDz<0" = .ok q := by decide
  have hq : q ≠ bare := by decide
  have htext := parse_text_of_parse h
  rw [if_neg hq] at htext
  exact ⟨h, htext⟩

end Query

end AddressLookup
