import AddressLookup.Proofs.Query.Grammar

/-! Reading follows the grammar, level by level: names and values between commas, selections, conditions,
lists of conditions, and the whole text. Each level is an equivalence, so nothing else is accepted. -/

namespace AddressLookup.Query

open Text

theorem commaParts_of_not_mem {s : List Char} (h : ',' ∉ s) :
    commaParts s = [String.ofList (trim s)] := by
  rw [commaParts, splitOn_of_not_mem h]
  rfl

theorem commaParts_append_cons {s : List Char} (h : ',' ∉ s) (t : List Char) :
    commaParts (s ++ ',' :: t) = String.ofList (trim s) :: commaParts t := by
  rw [commaParts, splitOn_append_cons h]
  rfl

theorem commaParts_eq_cons {s : List Char} {v : String} {vs : List String}
    (h : commaParts s = v :: vs) :
    ∃ p, ',' ∉ p ∧ trim p = v.toList ∧ (vs = [] ∧ s = p ∨ ∃ t, s = p ++ ',' :: t ∧ commaParts t = vs) := by
  rw [commaParts] at h
  obtain ⟨p, ps, hp, rfl, rfl⟩ := List.map_eq_cons_iff.1 h
  obtain ⟨hcomma, hrest⟩ := splitOn_eq_cons hp
  refine ⟨p, hcomma, String.toList_ofList.symm, ?_⟩
  rcases hrest with ⟨rfl, rfl⟩ | ⟨t, rfl, rfl⟩
  · exact .inl ⟨rfl, rfl⟩
  · exact .inr ⟨t, rfl, rfl⟩

theorem not_comma_mem_of_padded {v : String} {s : List Char} (h : Padded v.toList s)
    (hv : ',' ∉ v.toList) : ',' ∉ s := by
  intro hs
  refine hv (singleton_infix_iff.1 ?_)
  exact (h.infix_iff (List.cons_ne_nil ',' []) (not_blank_of_all (by decide))).1 (singleton_infix_iff.2 hs)

theorem commaParts_eq_iff {s : List Char} {vs : List String} :
    commaParts s = vs ↔ Listed vs s ∧ ∀ v ∈ vs, Trimmed v.toList ∧ ',' ∉ v.toList := by
  constructor
  · intro h
    induction vs generalizing s with
    | nil => exact absurd (List.map_eq_nil_iff.1 h) (splitOn_ne_nil ',' s)
    | cons v vs ih =>
      obtain ⟨p, hcomma, hv, hrest⟩ := commaParts_eq_cons h
      obtain ⟨htrim, hpad⟩ := trim_eq_iff.1 hv
      have hpart : Trimmed v.toList ∧ ',' ∉ v.toList :=
        ⟨htrim, fun hin => hcomma (hpad.isInfix.subset hin)⟩
      rcases hrest with ⟨rfl, rfl⟩ | ⟨t, rfl, ht⟩
      · exact ⟨.one hpad, by simpa using hpart⟩
      · obtain ⟨hlisted, hparts⟩ := ih ht
        exact ⟨.cons hpad hlisted, List.forall_mem_cons.2 ⟨hpart, hparts⟩⟩
  · rintro ⟨h, hparts⟩
    induction h with
    | one hpad =>
      obtain ⟨htrim, hcomma⟩ := hparts _ List.mem_cons_self
      rw [commaParts_of_not_mem (not_comma_mem_of_padded hpad hcomma),
        trim_eq_of_padded htrim hpad, String.ofList_toList]
    | cons hpad _ ih =>
      obtain ⟨⟨htrim, hcomma⟩, hparts⟩ := List.forall_mem_cons.1 hparts
      rw [commaParts_append_cons (not_comma_mem_of_padded hpad hcomma),
        trim_eq_of_padded htrim hpad, String.ofList_toList, ih hparts]

theorem commaParts_pad {a b : List Char} (ha : Blank a) (hb : Blank b) (s : List Char) :
    commaParts (a ++ (s ++ b)) = commaParts s := by
  obtain ⟨hlisted, hparts⟩ := commaParts_eq_iff.1 (rfl : commaParts s = commaParts s)
  exact commaParts_eq_iff.2 ⟨hlisted.pad ha hb, hparts⟩

theorem commaParts_trim (s : List Char) : commaParts (trim s) = commaParts s := by
  obtain ⟨a, b, ha, hb, hs⟩ := padded_trim s
  calc commaParts (trim s) = commaParts (a ++ (trim s ++ b)) := (commaParts_pad ha hb _).symm
    _ = commaParts s := by rw [← hs]

theorem commaParts_append_blank {b : List Char} (hb : Blank b) (s : List Char) :
    commaParts (s ++ b) = commaParts s :=
  commaParts_pad blank_nil hb s

theorem commaParts_eq_empty_iff {s : List Char} : commaParts s = [""] ↔ trim s = [] := by
  rw [commaParts_eq_iff, trim_eq_iff]
  constructor
  · rintro ⟨h, -⟩
    cases h with
    | one hpad => exact ⟨trimmed_nil, hpad⟩
    | cons _ h => cases h
  · rintro ⟨-, hpad⟩
    exact ⟨.one hpad, by simpa using trimmed_nil⟩

theorem selectionOf_append_blank {b : List Char} (hb : Blank b) (s : List Char) :
    selectionOf (s ++ b) = selectionOf s := by
  rw [selectionOf, selectionOf, commaParts_append_blank hb]

theorem selectionOf_eq_all_iff {s : List Char} :
    selectionOf s = .all ↔ (commaParts s).head? = some "*" := by
  rw [selectionOf]
  split <;> simp_all

theorem selectionOf_eq_names_iff {s : List Char} {ns : List String} :
    selectionOf s = .names ns ↔ commaParts s = ns ∧ ns.head? ≠ some "*" := by
  rw [selectionOf]
  split
  · next h =>
    refine iff_of_false (by simp) ?_
    rintro ⟨rfl, hne⟩
    exact hne h
  · next h =>
    constructor
    · rintro heq
      obtain rfl : commaParts s = ns := by simpa using heq
      exact ⟨rfl, h⟩
    · rintro ⟨rfl, -⟩
      rfl

theorem not_whereWord_infix_star {s : List Char} (h : Padded ['*'] s) : ¬ whereWord <:+: s := by
  rw [h.infix_iff whereWord_solid.ne_nil whereWord_solid.not_blank]
  decide

theorem layout_of_selectionOf {s : List Char} {sel : Selection} (hfree : ¬ whereWord <:+: s)
    (h : selectionOf s = sel) : sel.WellFormed ∧ sel.Layout s := by
  cases sel with
  | all =>
    refine ⟨trivial, ?_⟩
    obtain ⟨vs, hparts⟩ := List.head?_eq_some_iff.1 (selectionOf_eq_all_iff.1 h)
    obtain ⟨p, -, hstar, ⟨-, rfl⟩ | ⟨t, rfl, -⟩⟩ := commaParts_eq_cons hparts
    · exact .star (trim_eq_iff.1 hstar).2
    · rw [infix_append_cons_iff whereWord_solid.not_comma whereWord_solid.ne_nil, not_or] at hfree
      exact .starFirst (trim_eq_iff.1 hstar).2 hfree.2
  | names ns =>
    obtain ⟨hparts, hstar⟩ := selectionOf_eq_names_iff.1 h
    obtain ⟨hlisted, hplain⟩ := commaParts_eq_iff.1 hparts
    rw [hlisted.infix_iff whereWord_solid] at hfree
    refine ⟨⟨?_, hstar, fun n hn => ?_⟩, .names hlisted⟩
    · rintro rfl
      cases hlisted
    · exact ⟨(hplain n hn).1, (hplain n hn).2, fun hin => hfree ⟨n, hn, hin⟩⟩

theorem selectionOf_of_layout {s : List Char} {sel : Selection} (hsel : sel.WellFormed)
    (h : sel.Layout s) : ¬ whereWord <:+: s ∧ selectionOf s = sel := by
  cases h with
  | star hpad =>
    refine ⟨not_whereWord_infix_star hpad, selectionOf_eq_all_iff.2 ?_⟩
    have hparts : commaParts s = ["*"] := commaParts_eq_iff.2 ⟨.one hpad, by decide⟩
    rw [hparts]
    rfl
  | @starFirst s t hpad ht =>
    refine ⟨?_, selectionOf_eq_all_iff.2 ?_⟩
    · rw [infix_append_cons_iff whereWord_solid.not_comma whereWord_solid.ne_nil, not_or]
      exact ⟨not_whereWord_infix_star hpad, ht⟩
    · have hcomma : ',' ∉ s := not_comma_mem_of_padded (v := "*") hpad (by decide)
      rw [commaParts_append_cons hcomma, trim_eq_of_padded (by decide) hpad]
      rfl
  | names hlisted =>
    obtain ⟨-, hstar, hnames⟩ := hsel
    refine ⟨?_, selectionOf_eq_names_iff.2 ⟨commaParts_eq_iff.2 ⟨hlisted, ?_⟩, hstar⟩⟩
    · rw [hlisted.infix_iff whereWord_solid]
      rintro ⟨n, hn, hin⟩
      exact (hnames n hn).2.2 hin
    · exact fun n hn => ⟨(hnames n hn).1, (hnames n hn).2.1⟩

theorem find?_operator_eq_some_iff {clause : List Char} {o : Operator} :
    (Operator.searchOrder.find? fun o => clause.contains o.symbol) = some o ↔
      o.symbol ∈ clause ∧ ∀ symbol ∈ o.reserved, symbol ≠ o.symbol → symbol ∉ clause := by
  cases o <;>
    simp only [Operator.searchOrder, List.find?_cons, Operator.symbol, Operator.reserved] <;>
    by_cases h₁ : '=' ∈ clause <;> by_cases h₂ : '>' ∈ clause <;> by_cases h₃ : '<' ∈ clause <;>
    simp [h₁, h₂, h₃]

theorem map_trim_splitOn_eq_pair_iff {c : Char} {clause u v : List Char} :
    (splitOn c clause).map trim = [u, v] ↔
      ∃ s t, clause = s ++ c :: t ∧ c ∉ s ∧ c ∉ t ∧ trim s = u ∧ trim t = v := by
  constructor
  · intro h
    obtain ⟨s, ps, hs, rfl, hps⟩ := List.map_eq_cons_iff.1 h
    obtain ⟨t, qs, rfl, rfl, hqs⟩ := List.map_eq_cons_iff.1 hps
    obtain rfl := List.map_eq_nil_iff.1 hqs
    obtain ⟨hcs, ⟨h, -⟩ | ⟨r, rfl, hr⟩⟩ := splitOn_eq_cons hs
    · exact absurd h (List.cons_ne_nil t [])
    · obtain ⟨hct, ⟨-, rfl⟩ | ⟨w, -, hw⟩⟩ := splitOn_eq_cons hr
      · exact ⟨s, r, rfl, hcs, hct, rfl, rfl⟩
      · exact absurd hw (splitOn_ne_nil c w)
  · rintro ⟨s, t, rfl, hcs, hct, rfl, rfl⟩
    rw [splitOn_append_cons hcs, splitOn_of_not_mem hct]
    rfl

/-- A cut of a clause at the operator of a condition, with the two sides read as its parts. -/
structure Cut (c : Condition) (s t : List Char) : Prop where
  symbols : ∀ symbol ∈ c.predicate.operator.reserved, symbol ∉ s ∧ symbol ∉ t
  field : trim s = c.field.toList
  field_ne : c.field ≠ ""
  operand_ne : trim t ≠ []
  predicate : predicateOf c.predicate.operator (trim t) = c.predicate

theorem operator_predicateOf (o : Operator) (operand : List Char) :
    (predicateOf o operand).operator = o := by
  cases o <;> rfl

theorem conditionOf_eq_ok_iff {clause : List Char} {c : Condition} :
    conditionOf clause = .ok c ↔
      ∃ s t, clause = s ++ c.predicate.operator.symbol :: t ∧ Cut c s t := by
  constructor
  · intro h
    rw [conditionOf] at h
    split at h
    · exact absurd h (by simp)
    · next o ho =>
      split at h
      · next u v huv =>
        split at h
        · exact absurd h (by simp)
        · next hne =>
          obtain rfl : ⟨String.ofList u, predicateOf o v⟩ = c := by simpa using h
          rw [operator_predicateOf]
          obtain ⟨s, t, rfl, hs, ht, rfl, rfl⟩ := map_trim_splitOn_eq_pair_iff.1 huv
          obtain ⟨hu, hv⟩ : trim s ≠ [] ∧ trim t ≠ [] := by simpa using hne
          refine ⟨s, t, rfl, ?_, String.toList_ofList.symm, by simpa using hu, hv, ?_⟩
          · intro symbol hsymbol
            rw [operator_predicateOf] at hsymbol
            by_cases heq : symbol = o.symbol
            · exact heq ▸ ⟨hs, ht⟩
            · -- A symbol that is scanned before the one found does not stand in the clause at all.
              have hnot := (find?_operator_eq_some_iff.1 ho).2 symbol hsymbol heq
              simp only [List.mem_append, List.mem_cons, not_or] at hnot
              exact ⟨hnot.1, hnot.2.2⟩
          · rw [operator_predicateOf]
      · exact absurd h (by simp)
  · rintro ⟨s, t, rfl, h⟩
    have hfind := find?_operator_eq_some_iff.2
      ⟨List.mem_append_right s List.mem_cons_self, fun symbol hsymbol hne => by
        simpa [not_or, hne] using h.symbols symbol hsymbol⟩
    have hown := h.symbols _ (symbol_mem_reserved _)
    have hsplit := map_trim_splitOn_eq_pair_iff.2 ⟨s, t, rfl, hown.1, hown.2, rfl, rfl⟩
    have hfield : trim s ≠ [] := by
      rw [h.field]
      simpa using h.field_ne
    simp only [conditionOf, hfind, hsplit]
    rw [if_neg (by simp [hfield, h.operand_ne]), h.predicate, h.field, String.ofList_toList]

theorem conditionOf_trim_eq_ok_iff {clause : List Char} {c : Condition} :
    conditionOf (trim clause) = .ok c ↔
      ∃ s t, clause = s ++ c.predicate.operator.symbol :: t ∧ Cut c s t := by
  rw [conditionOf_eq_ok_iff]
  constructor
  · rintro ⟨s, t, hst, h⟩
    obtain ⟨a, b, ha, hb, hclause⟩ := padded_trim clause
    refine ⟨a ++ s, t ++ b, by rw [hclause, hst]; simp, ?_, ?_, h.field_ne, ?_, ?_⟩
    · intro symbol hsymbol
      have hsolid := (reserved_solid symbol hsymbol).not_blank
      obtain ⟨hs, ht⟩ := h.symbols symbol hsymbol
      have hsa : symbol ∉ a := fun hin => ha.not_mem hsolid symbol hin (List.mem_singleton_self symbol)
      have hsb : symbol ∉ b := fun hin => hb.not_mem hsolid symbol hin (List.mem_singleton_self symbol)
      simp only [List.mem_append, not_or]
      exact ⟨⟨hsa, hs⟩, ht, hsb⟩
    · rw [trim_append_left ha, h.field]
    · rw [trim_append_right hb]
      exact h.operand_ne
    · rw [trim_append_right hb, h.predicate]
  · rintro ⟨s, t, rfl, h⟩
    obtain ⟨a, b, ha, hb, hs, ht, heq⟩ := trim_append_cons (isBlank_symbol c.predicate.operator) s t
    have htrim_s : trim (trimStart s) = trim s := by
      conv => rhs; rw [hs, trim_append_left ha]
    have htrim_t : trim (trimEnd t) = trim t := by
      conv => rhs; rw [ht, trim_append_right hb]
    refine ⟨trimStart s, trimEnd t, heq, ?_, ?_, h.field_ne, ?_, ?_⟩
    · intro symbol hsymbol
      obtain ⟨hin_s, hin_t⟩ := h.symbols symbol hsymbol
      rw [hs] at hin_s
      rw [ht] at hin_t
      exact ⟨fun hin => hin_s (List.mem_append_right a hin),
        fun hin => hin_t (List.mem_append_left b hin)⟩
    · rw [htrim_s, h.field]
    · rw [htrim_t]
      exact h.operand_ne
    · rw [htrim_t, h.predicate]

theorem predicateOf_trim_eq_iff {p : Predicate} {t : List Char} :
    trim t ≠ [] ∧ predicateOf p.operator (trim t) = p ↔ p.WellFormed ∧ p.Layout t := by
  have hbound (bound : String) : trim t ≠ [] ∧ String.ofList (trim t) = bound ↔
      (Trimmed bound.toList ∧ bound ≠ "") ∧ Padded bound.toList t := by
    constructor
    · rintro ⟨hne, rfl⟩
      rw [String.toList_ofList]
      exact ⟨⟨trimmed_trim t, by simpa using hne⟩, padded_trim t⟩
    · rintro ⟨⟨htrim, hne⟩, hpad⟩
      rw [trim_eq_of_padded htrim hpad, String.ofList_toList]
      exact ⟨by simpa using hne, rfl⟩
  cases p with
  | oneOf values =>
    have hvalues : predicateOf .equal (trim t) = .oneOf values ↔ commaParts t = values := by
      rw [predicateOf, commaParts_trim, Predicate.oneOf.injEq]
    show trim t ≠ [] ∧ predicateOf .equal (trim t) = .oneOf values ↔ _
    rw [hvalues, Ne, ← commaParts_eq_empty_iff]
    constructor
    · rintro ⟨hne, rfl⟩
      obtain ⟨hlisted, hparts⟩ := commaParts_eq_iff.1 (rfl : commaParts t = commaParts t)
      refine ⟨⟨hne, fun hnil => ?_, hparts⟩, hlisted⟩
      rw [hnil] at hlisted
      cases hlisted
    · rintro ⟨⟨hne, -, hparts⟩, hlisted⟩
      have hcomma := commaParts_eq_iff.2 ⟨hlisted, hparts⟩
      exact ⟨hcomma ▸ hne, hcomma⟩
  | above bound =>
    show trim t ≠ [] ∧ Predicate.above (String.ofList (trim t)) = .above bound ↔ _
    rw [Predicate.above.injEq, hbound]
    rfl
  | below bound =>
    show trim t ≠ [] ∧ Predicate.below (String.ofList (trim t)) = .below bound ↔ _
    rw [Predicate.below.injEq, hbound]
    rfl

theorem cut_iff {c : Condition} {s t : List Char} :
    Cut c s t ↔ Trimmed c.field.toList ∧ c.field ≠ "" ∧ c.predicate.WellFormed ∧
      (∀ text ∈ c.texts, ∀ symbol ∈ c.predicate.operator.reserved, symbol ∉ text.toList) ∧
      Padded c.field.toList s ∧ c.predicate.Layout t := by
  -- A reserved symbol is outside a side just when it is outside every part read from it.
  have hmem (hpad : Padded c.field.toList s) (hlayout : c.predicate.Layout t) {symbol : Char}
      (h : symbol ∈ c.predicate.operator.reserved) :
      symbol ∉ s ∧ symbol ∉ t ↔ ∀ text ∈ c.texts, symbol ∉ text.toList := by
    have hsolid := reserved_solid symbol h
    have hs := hpad.infix_iff hsolid.ne_nil hsolid.not_blank
    have ht := hlayout.infix_iff hsolid
    simp only [singleton_infix_iff] at hs ht
    rw [hs, ht, Condition.texts, List.forall_mem_cons]
    simp
  constructor
  · intro h
    obtain ⟨htrim, hpad⟩ := trim_eq_iff.1 h.field
    obtain ⟨hpred, hlayout⟩ := predicateOf_trim_eq_iff.1 ⟨h.operand_ne, h.predicate⟩
    exact ⟨htrim, h.field_ne, hpred,
      fun text htext symbol hs => (hmem hpad hlayout hs).1 (h.symbols symbol hs) text htext,
      hpad, hlayout⟩
  · rintro ⟨htrim, hne, hpred, hsymbols, hpad, hlayout⟩
    obtain ⟨hoperand, hpredicate⟩ := predicateOf_trim_eq_iff.2 ⟨hpred, hlayout⟩
    exact ⟨fun symbol hs => (hmem hpad hlayout hs).2 fun text htext => hsymbols text htext symbol hs,
      trim_eq_of_padded htrim hpad, hne, hoperand, hpredicate⟩

theorem conditionOf_trim_iff {clause : List Char} {c : Condition} :
    (¬ whereWord <:+: clause ∧ ¬ andWord <:+: clause) ∧ conditionOf (trim clause) = .ok c ↔
      c.WellFormed ∧ c.Layout clause := by
  have hkeywords (h : c.Layout clause) : (¬ whereWord <:+: clause ∧ ¬ andWord <:+: clause) ↔
      ∀ t ∈ c.texts, ¬ whereWord <:+: t.toList ∧ ¬ andWord <:+: t.toList := by
    rw [h.infix_iff whereWord_solid (symbol_not_mem_whereWord _),
      h.infix_iff andWord_solid (symbol_not_mem_andWord _)]
    simp only [not_exists, not_and]
    exact ⟨fun h t ht => ⟨h.1 t ht, h.2 t ht⟩, fun h => ⟨fun t ht => (h t ht).1, fun t ht => (h t ht).2⟩⟩
  constructor
  · rintro ⟨hfree, h⟩
    obtain ⟨s, t, rfl, hcut⟩ := conditionOf_trim_eq_ok_iff.1 h
    obtain ⟨htrim, hne, hpred, hsymbols, hpad, hlayout⟩ := cut_iff.1 hcut
    have hclause : c.Layout _ := .mk hpad hlayout
    exact ⟨⟨htrim, hne, hpred, hsymbols, (hkeywords hclause).1 hfree⟩, hclause⟩
  · rintro ⟨hc, hclause⟩
    refine ⟨(hkeywords hclause).2 hc.keywords, conditionOf_trim_eq_ok_iff.2 ?_⟩
    obtain ⟨hpad, hlayout⟩ := hclause
    exact ⟨_, _, rfl, cut_iff.2 ⟨hc.field_trimmed, hc.field_ne, hc.predicate, hc.symbols, hpad, hlayout⟩⟩

theorem conditionsOf_cons_eq_ok_iff {clause : List Char} {clauses : List (List Char)}
    {cs : List Condition} : conditionsOf (clause :: clauses) = .ok cs ↔
      ∃ d ds, conditionOf (trim clause) = .ok d ∧ conditionsOf clauses = .ok ds ∧ cs = d :: ds := by
  rw [conditionsOf]
  rcases conditionOf (trim clause) with e | d
  · simp
  · rcases conditionsOf clauses with e | ds
    · simp
    · simp [eq_comm]

theorem clauseLayout_of_conditionsOf {s : List Char} {cs : List Condition}
    (hfree : ¬ whereWord <:+: s) (h : conditionsOf (splitWord andWord s) = .ok cs) :
    (∀ c ∈ cs, c.WellFormed) ∧ ClauseLayout cs s := by
  obtain ⟨p, ps, hp⟩ := List.exists_cons_of_ne_nil (splitWord_ne_nil andWord s)
  rw [hp] at h
  induction cs generalizing s p ps with
  | nil =>
    obtain ⟨d, ds, -, -, h⟩ := conditionsOf_cons_eq_ok_iff.1 h
    exact absurd h.symm (List.cons_ne_nil d ds)
  | cons c cs ih =>
    obtain ⟨d, ds, hd, hds, h⟩ := conditionsOf_cons_eq_ok_iff.1 h
    obtain ⟨rfl, rfl⟩ := List.cons_eq_cons.1 h
    -- The first clause ends with the text, or at the first `AND`; the rest is then cut likewise.
    obtain ⟨hand, ⟨rfl, rfl⟩ | ⟨t, rfl, rfl⟩⟩ := splitWord_eq_cons andWord_solid.ne_nil hp
    · obtain ⟨hc, hlayout⟩ := conditionOf_trim_iff.1 ⟨⟨hfree, hand⟩, hd⟩
      obtain rfl : cs = [] := by simpa [conditionsOf, eq_comm] using hds
      exact ⟨by simpa using hc, .one hlayout⟩
    · have hfree_p : ¬ whereWord <:+: p := fun hin =>
        hfree (hin.trans (List.prefix_append p (andWord ++ t)).isInfix)
      have hfree_t : ¬ whereWord <:+: t := fun hin =>
        hfree (hin.trans ((List.suffix_append andWord t).trans (List.suffix_append p _)).isInfix)
      obtain ⟨hc, hlayout⟩ := conditionOf_trim_iff.1 ⟨⟨hfree_p, hand⟩, hd⟩
      obtain ⟨q, qs, hq⟩ := List.exists_cons_of_ne_nil (splitWord_ne_nil andWord t)
      rw [hq] at hds
      obtain ⟨hcs, hrest⟩ := ih hfree_t q qs hds hq
      exact ⟨List.forall_mem_cons.2 ⟨hc, hcs⟩, .cons hlayout hrest⟩

theorem not_whereWord_infix_append {s t : List Char} (hs : ¬ whereWord <:+: s)
    (ht : ¬ whereWord <:+: t) : ¬ whereWord <:+: s ++ (andWord ++ t) := by
  have hA : 'A' ∉ whereWord := by decide
  have hN : 'N' ∉ whereWord := by decide
  have hD : 'D' ∉ whereWord := by decide
  have hne := whereWord_solid.ne_nil
  have hend : ¬ whereWord <:+: 'N' :: 'D' :: t := by
    rw [← List.nil_append ('N' :: 'D' :: t), infix_append_cons_iff hN hne,
      ← List.nil_append ('D' :: t), infix_append_cons_iff hD hne]
    simp [ht, hne]
  show ¬ whereWord <:+: s ++ 'A' :: ('N' :: 'D' :: t)
  rw [infix_append_cons_iff hA hne]
  exact fun h => h.elim hs hend

theorem andWord_borderless : Borderless andWord := by decide

theorem whereWord_borderless : Borderless whereWord := by decide

theorem conditionsOf_of_clauseLayout {s : List Char} {cs : List Condition}
    (hcs : ∀ c ∈ cs, c.WellFormed) (h : ClauseLayout cs s) :
    ¬ whereWord <:+: s ∧ conditionsOf (splitWord andWord s) = .ok cs := by
  induction h with
  | one hlayout =>
    obtain ⟨⟨hwhere, hand⟩, hc⟩ := conditionOf_trim_iff.2 ⟨hcs _ List.mem_cons_self, hlayout⟩
    refine ⟨hwhere, ?_⟩
    rw [splitWord_of_free hand]
    exact conditionsOf_cons_eq_ok_iff.2 ⟨_, [], hc, rfl, rfl⟩
  | cons hlayout _ ih =>
    obtain ⟨hc, hcs⟩ := List.forall_mem_cons.1 hcs
    obtain ⟨⟨hwhere, hand⟩, hc⟩ := conditionOf_trim_iff.2 ⟨hc, hlayout⟩
    obtain ⟨hwhere_t, hcs⟩ := ih hcs
    refine ⟨not_whereWord_infix_append hwhere hwhere_t, ?_⟩
    rw [splitWord_append andWord_borderless andWord_solid.ne_nil hand]
    exact conditionsOf_cons_eq_ok_iff.2 ⟨_, _, hc, hcs, rfl⟩

theorem parseBody_of_free {s : List Char} (h : ¬ whereWord <:+: s) :
    parseBody s = .ok ⟨selectionOf s, []⟩ := by
  rw [parseBody, splitWord_of_free h]

theorem splitWord_whereWord_append {s : List Char} (h : ¬ whereWord <:+: s) (t : List Char) :
    splitWord whereWord (s ++ (whereWord ++ t)) = s :: splitWord whereWord t :=
  splitWord_append whereWord_borderless whereWord_solid.ne_nil h t

theorem parseBody_of_blank {s t : List Char} (h : ¬ whereWord <:+: s) (ht : Blank t) :
    parseBody (s ++ (whereWord ++ t)) = .ok ⟨selectionOf s, []⟩ := by
  have hfree : ¬ whereWord <:+: t := by
    have hpad : Padded [] t := ⟨t, [], ht, blank_nil, by simp⟩
    rw [hpad.infix_iff whereWord_solid.ne_nil whereWord_solid.not_blank]
    decide
  rw [parseBody, splitWord_whereWord_append h, splitWord_of_free hfree]
  simp [trim_eq_nil_iff.2 ht]

theorem parseBody_of_not_blank {s t : List Char} (h : ¬ whereWord <:+: s) (ht : ¬ whereWord <:+: t)
    (hblank : ¬ Blank t) : parseBody (s ++ (whereWord ++ t)) =
      (conditionsOf (splitWord andWord t)).map fun cs => ⟨selectionOf s, cs⟩ := by
  rw [parseBody, splitWord_whereWord_append h, splitWord_of_free ht]
  have hne : trim t ≠ [] := fun hnil => hblank (trim_eq_nil_iff.1 hnil)
  rcases hcs : conditionsOf (splitWord andWord t) with e | cs <;> simp [hne, hcs, Except.map]

theorem parseBody_of_two {s t : List Char} (h : ¬ whereWord <:+: s) (ht : ¬ whereWord <:+: t)
    (u : List Char) :
    parseBody (s ++ (whereWord ++ (t ++ (whereWord ++ u)))) = .error .repeatedWhere := by
  obtain ⟨v, vs, hv⟩ := List.exists_cons_of_ne_nil (splitWord_ne_nil whereWord u)
  rw [parseBody, splitWord_whereWord_append h, splitWord_whereWord_append ht, hv]

theorem whereWord_cases (body : List Char) :
    ¬ whereWord <:+: body ∨
    (∃ s t, body = s ++ (whereWord ++ t) ∧ ¬ whereWord <:+: s ∧ ¬ whereWord <:+: t) ∨
    ∃ s t u, body = s ++ (whereWord ++ (t ++ (whereWord ++ u))) ∧
      ¬ whereWord <:+: s ∧ ¬ whereWord <:+: t := by
  obtain ⟨s, ps, hs⟩ := List.exists_cons_of_ne_nil (splitWord_ne_nil whereWord body)
  obtain ⟨hfree, ⟨-, rfl⟩ | ⟨t, rfl, -⟩⟩ := splitWord_eq_cons whereWord_solid.ne_nil hs
  · exact .inl hfree
  · obtain ⟨u, us, hu⟩ := List.exists_cons_of_ne_nil (splitWord_ne_nil whereWord t)
    obtain ⟨hfree_u, ⟨-, rfl⟩ | ⟨v, rfl, -⟩⟩ := splitWord_eq_cons whereWord_solid.ne_nil hu
    · exact .inr (.inl ⟨s, t, rfl, hfree, hfree_u⟩)
    · exact .inr (.inr ⟨s, u, v, rfl, hfree, hfree_u⟩)

theorem bodyLayout_of_parseBody {body : List Char} {q : Query} (h : parseBody body = .ok q) :
    q.WellFormed ∧ q.BodyLayout body := by
  rcases whereWord_cases body with hs | ⟨s, t, rfl, hs, ht⟩ | ⟨s, t, u, rfl, hs, ht⟩
  · rw [parseBody_of_free hs] at h
    obtain rfl := Except.ok.inj h
    obtain ⟨hsel, hlayout⟩ := layout_of_selectionOf hs rfl
    exact ⟨⟨hsel, by simp⟩, .selection hlayout⟩
  · obtain ⟨hsel, hlayout⟩ := layout_of_selectionOf hs rfl
    by_cases hblank : Blank t
    · rw [parseBody_of_blank hs hblank] at h
      obtain rfl := Except.ok.inj h
      exact ⟨⟨hsel, by simp⟩, .noClause hlayout hblank⟩
    · rw [parseBody_of_not_blank hs ht hblank] at h
      rcases hcs : conditionsOf (splitWord andWord t) with e | cs
      · rw [hcs] at h
        exact absurd h (by simp [Except.map])
      · rw [hcs] at h
        obtain rfl := Except.ok.inj h
        obtain ⟨hwell, hclauses⟩ := clauseLayout_of_conditionsOf ht hcs
        exact ⟨⟨hsel, hwell⟩, .clauses hlayout hclauses⟩
  · rw [parseBody_of_two hs ht] at h
    exact absurd h (by simp)

theorem not_blank_of_clauseLayout {s : List Char} {cs : List Condition} (h : ClauseLayout cs s) :
    ¬ Blank s := by
  intro hblank
  have hclause {c : Condition} {u : List Char} (hc : c.Layout u) (hu : Blank u) : False := by
    obtain ⟨-, -⟩ := hc
    have hsymbol := hu c.predicate.operator.symbol (by simp)
    rw [isBlank_symbol] at hsymbol
    exact Bool.noConfusion hsymbol
  cases h with
  | one hc => exact hclause hc hblank
  | cons hc _ => exact hclause hc (blank_append.1 hblank).1

theorem parseBody_of_bodyLayout {body : List Char} {q : Query} (hq : q.WellFormed)
    (h : q.BodyLayout body) : parseBody body = .ok q := by
  cases h with
  | selection hsel =>
    obtain ⟨hfree, rfl⟩ := selectionOf_of_layout hq.selection hsel
    exact parseBody_of_free hfree
  | noClause hsel ht =>
    obtain ⟨hfree, rfl⟩ := selectionOf_of_layout hq.selection hsel
    exact parseBody_of_blank hfree ht
  | clauses hsel hcs =>
    obtain ⟨hfree, rfl⟩ := selectionOf_of_layout hq.selection hsel
    obtain ⟨hfree_t, hconditions⟩ := conditionsOf_of_clauseLayout hq.conditions hcs
    rw [parseBody_of_not_blank hfree hfree_t (not_blank_of_clauseLayout hcs), hconditions]
    rfl

end AddressLookup.Query
