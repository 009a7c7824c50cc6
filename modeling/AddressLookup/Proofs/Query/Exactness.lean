import AddressLookup.Proofs.Query.Reading
import Mathlib.Data.List.Basic

/-! A text is read as a query exactly if it is a layout of it. The one layout that is refused is the bare
word `GET`: trimming takes away the space that belongs to the word. The canonical text is a layout, so it
reads back. -/

namespace AddressLookup.Query

open Text

theorem conditionsOf_extendLast {b : List Char} (hb : Blank b) (clauses : List (List Char)) :
    conditionsOf (extendLast b clauses) = conditionsOf clauses := by
  induction clauses with
  | nil => rfl
  | cons clause clauses ih =>
    rcases clauses with _ | ⟨next, more⟩
    · simp only [extendLast, conditionsOf, trim_append_right hb]
    · rw [extendLast_cons b clause (List.cons_ne_nil next more), conditionsOf, ih, ← conditionsOf]

theorem whereWord_infix_append_blank {s b : List Char} (hb : Blank b) :
    whereWord <:+: s ++ b ↔ whereWord <:+: s :=
  infix_append_iff_left (hb.not_mem whereWord_solid.not_blank) whereWord_solid.ne_nil

theorem parseBody_append_blank {b : List Char} (hb : Blank b) (body : List Char) :
    parseBody (body ++ b) = parseBody body := by
  rcases whereWord_cases body with hs | ⟨s, t, rfl, hs, ht⟩ | ⟨s, t, u, rfl, hs, ht⟩
  · rw [parseBody_of_free hs, parseBody_of_free (by rwa [whereWord_infix_append_blank hb]),
      selectionOf_append_blank hb]
  · have hassoc : s ++ (whereWord ++ t) ++ b = s ++ (whereWord ++ (t ++ b)) := by simp
    rw [hassoc]
    by_cases hblank : Blank t
    · rw [parseBody_of_blank hs hblank, parseBody_of_blank hs (blank_append.2 ⟨hblank, hb⟩)]
    · have hclauses : splitWord andWord (t ++ b) = extendLast b (splitWord andWord t) :=
        splitWord_append_tail andWord_borderless andWord_solid.ne_nil
          (hb.not_mem andWord_solid.not_blank) t
      rw [parseBody_of_not_blank hs ht hblank, parseBody_of_not_blank hs
        (by rwa [whereWord_infix_append_blank hb]) (fun h => hblank (blank_append.1 h).1), hclauses,
        conditionsOf_extendLast hb]
  · have hassoc : s ++ (whereWord ++ (t ++ (whereWord ++ u))) ++ b =
        s ++ (whereWord ++ (t ++ (whereWord ++ (u ++ b)))) := by simp
    rw [hassoc, parseBody_of_two hs ht, parseBody_of_two hs ht]

theorem isPrefixOf?_eq_some_iff {word s t : List Char} :
    word.isPrefixOf? s = some t ↔ s = word ++ t := by
  induction word generalizing s with
  | nil => simp [List.isPrefixOf?, eq_comm]
  | cons c word ih =>
    cases s with
    | nil => simp [List.isPrefixOf?]
    | cons d s =>
      by_cases h : c = d
      · simp [List.isPrefixOf?, h, ih]
      · simp [List.isPrefixOf?, h, Ne.symm h]

theorem exists_trimmed_end {s : List Char} (h : ¬ Blank s) :
    ∃ t b, Blank b ∧ s = t ++ b ∧ t ≠ [] ∧ ∀ c ∈ t.getLast?, isBlank c = false := by
  obtain ⟨a, b, ha, hb, hs⟩ := padded_trim s
  have hne : trim s ≠ [] := fun hnil => h (trim_eq_nil_iff.1 hnil)
  refine ⟨a ++ trim s, b, hb, by rw [List.append_assoc, ← hs], by simp [hne], fun c hc => ?_⟩
  rw [List.getLast?_append_of_ne_nil a hne] at hc
  exact (trimmed_trim s).2 c hc

theorem parseChars_append {p body : List Char} (hp : Blank p) (hbody : ¬ Blank body) :
    parseChars (p ++ (getWord ++ body)) = parseBody body := by
  obtain ⟨t, b, hb, rfl, hne, hend⟩ := exists_trimmed_end hbody
  have htrim : trim (p ++ (getWord ++ (t ++ b))) = getWord ++ t := by
    refine trim_eq_of_padded ⟨fun c hc => ?_, fun c hc => ?_⟩ ⟨p, b, hp, hb, by simp⟩
    · obtain rfl : 'G' = c := by simpa [getWord] using hc
      decide
    · rw [List.getLast?_append_of_ne_nil getWord hne] at hc
      exact hend c hc
  rw [parseChars, htrim, isPrefixOf?_eq_some_iff.2 rfl, parseBody_append_blank hb]

theorem exists_body_of_parseChars {s : List Char} {q : Query} (h : parseChars s = .ok q) :
    ∃ p body, Blank p ∧ s = p ++ (getWord ++ body) ∧ ¬ Blank body ∧ parseBody body = .ok q := by
  rw [parseChars] at h
  rcases hbody : getWord.isPrefixOf? (trim s) with _ | t
  · rw [hbody] at h
    exact absurd h (by simp)
  · rw [hbody] at h
    rw [isPrefixOf?_eq_some_iff] at hbody
    obtain ⟨htrim, p, b, hp, hb, hs⟩ := trim_eq_iff.1 hbody
    refine ⟨p, t ++ b, hp, by rw [hs]; simp, fun hblank => ?_, ?_⟩
    · -- The last character of `GET ` and of what follows it would be white space.
      have hlast (c : Char) (hc : c ∈ (getWord ++ t).getLast?) : isBlank c = true := by
        rcases t.eq_nil_or_concat with rfl | ⟨t', d, rfl⟩
        · obtain rfl : ' ' = c := by simpa [getWord] using hc
          decide
        · obtain rfl : d = c := by simpa [List.getLast?_append] using hc
          exact (blank_append.1 hblank).1 d (by simp)
      have hsome : (getWord ++ t).getLast? ≠ none := by simp [getWord]
      obtain ⟨c, hc⟩ := Option.ne_none_iff_exists'.1 hsome
      have hnot := htrim.2 c hc
      rw [hlast c hc] at hnot
      exact Bool.noConfusion hnot
    · rw [parseBody_append_blank hb]
      exact h

theorem eq_bare_of_blank {q : Query} {body : List Char} (hq : q.WellFormed) (h : q.BodyLayout body)
    (hblank : Blank body) : q = bare := by
  have hmem {c : Char} (hc : c ∈ body) (hnot : isBlank c = false) : False := by
    have := hblank c hc
    rw [hnot] at this
    exact Bool.noConfusion this
  have hwhere {s t : List Char} (heq : body = s ++ (whereWord ++ t)) : False := by
    refine hmem (c := 'W') ?_ (by decide)
    rw [heq]
    exact List.mem_append_right s (List.mem_append_left t (by decide))
  cases h with
  | noClause hsel ht => exact (hwhere rfl).elim
  | clauses hsel hcs => exact (hwhere rfl).elim
  | selection hsel =>
    cases hsel with
    | star hpad => exact (hmem (hpad.isInfix.subset (List.mem_singleton_self '*')) (by decide)).elim
    | starFirst hpad _ => exact (hmem (c := ',') (by simp) (by decide)).elim
    | names hlisted =>
      cases hlisted with
      | cons _ _ => exact (hmem (c := ',') (by simp) (by decide)).elim
      | @one v _ hpad =>
        obtain ⟨-, -, hnames⟩ := hq.selection
        have htrim := trim_eq_of_padded (hnames v List.mem_cons_self).1 hpad
        rw [trim_eq_nil_iff.2 hblank] at htrim
        obtain rfl : v = "" := String.toList_eq_nil_iff.1 htrim.symm
        rfl

theorem parseChars_of_bodyLayout {p body : List Char} {q : Query} (hq : q.WellFormed) (hp : Blank p)
    (h : q.BodyLayout body) (hbody : ¬ Blank body) : parseChars (p ++ (getWord ++ body)) = .ok q := by
  rw [parseChars_append hp hbody, parseBody_of_bodyLayout hq h]

theorem blank_of_bodyLayout_bare {body : List Char} (h : bare.BodyLayout body)
    (hfree : ¬ whereWord <:+: body) : Blank body := by
  have hinfix_where (s t : List Char) : whereWord <:+: s ++ (whereWord ++ t) :=
    List.infix_append' s whereWord t
  generalize hbare : bare = q at h
  cases h with
  | noClause _ _ => exact absurd (hinfix_where _ _) hfree
  | clauses _ _ => exact absurd (hinfix_where _ _) hfree
  | selection hsel =>
    obtain ⟨rfl, -⟩ := Query.mk.inj hbare
    cases hsel with
    | names hlisted =>
      cases hlisted with
      | one hpad =>
        obtain ⟨a, b, ha, hb, rfl⟩ := hpad
        exact blank_append.2 ⟨ha, by simpa using hb⟩
      | cons _ hnil => cases hnil

/-- A text is read as a query exactly if it is a layout of it and the query is well formed; a layout of the
query for a nameless field needs the keyword `WHERE`. -/
theorem parse_eq_ok_iff (text : String) (q : Query) :
    parse text = .ok q ↔
      q.WellFormed ∧ q.Layout text.toList ∧ (q = bare → whereWord <:+: text.toList) := by
  constructor
  · intro h
    -- A text that is read has more than white space behind `GET`, so it is not the layout that is refused.
    obtain ⟨p, body, hp, htext, hbody, hq⟩ := exists_body_of_parseChars h
    obtain ⟨hwell, hlayout⟩ := bodyLayout_of_parseBody hq
    refine ⟨hwell, ⟨p, body, hp, htext, hlayout⟩, ?_⟩
    rintro rfl
    by_contra hfree
    refine hbody (blank_of_bodyLayout_bare hlayout fun hin => hfree ?_)
    rw [htext]
    exact hin.trans ((List.suffix_append getWord body).trans (List.suffix_append p _)).isInfix
  · rintro ⟨hwell, ⟨p, body, hp, htext, hlayout⟩, hbare⟩
    rw [parse, htext]
    refine parseChars_of_bodyLayout hwell hp hlayout fun hblank => ?_
    have hin := hbare (eq_bare_of_blank hwell hlayout hblank)
    have hW : 'W' ∈ text.toList := hin.subset (by decide)
    rw [htext, List.mem_append, List.mem_append] at hW
    rcases hW with hW | hW | hW
    · exact absurd (hp 'W' hW) (by decide)
    · exact absurd hW (by decide)
    · exact absurd (hblank 'W' hW) (by decide)

theorem bare_wellFormed : bare.WellFormed :=
  ⟨⟨by decide, by decide, by simpa using ⟨trimmed_nil, whereWord_solid.ne_nil⟩⟩, by simp [bare]⟩

/-- Without the keyword `WHERE` the layout of the query for a nameless field is refused. -/
theorem not_parse_bare_layout :
    ¬ (parse "GET " = .ok bare ↔ bare.WellFormed ∧ bare.Layout "GET ".toList) := by
  have hlayout : bare.Layout "GET ".toList :=
    ⟨[], [], blank_nil, by decide, .selection (.names (.one (padded_refl [])))⟩
  have hrefused : parse "GET " = .error .missingGet := by decide
  intro h
  have hread := h.2 ⟨bare_wellFormed, hlayout⟩
  rw [hrefused] at hread
  exact absurd hread (by simp)

end AddressLookup.Query
