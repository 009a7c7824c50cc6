import AddressLookup.Proofs.Text.Trimming
import AddressLookup.Query.Parse

/-! The grammar of queries: which queries have a text at all, and which texts a query has. White space
may stand around every name, keyword, operator and value; keywords need none. -/

namespace AddressLookup

open Text

inductive Listed : List String → List Char → Prop where
  | one {v : String} {s : List Char} : Padded v.toList s → Listed [v] s
  | cons {v : String} {vs : List String} {s t : List Char} :
      Padded v.toList s → Listed vs t → Listed (v :: vs) (s ++ ',' :: t)

namespace Selection

def WellFormed : Selection → Prop
  | all => True
  | names ns => ns ≠ [] ∧ ns.head? ≠ some "*" ∧
      ∀ n ∈ ns, Trimmed n.toList ∧ ',' ∉ n.toList ∧ ¬ Query.whereWord <:+: n.toList

/-- The texts of a selection; whatever follows a star and a comma is not looked at. -/
inductive Layout : Selection → List Char → Prop where
  | star {s : List Char} : Padded ['*'] s → Layout all s
  | starFirst {s t : List Char} :
      Padded ['*'] s → ¬ Query.whereWord <:+: t → Layout all (s ++ ',' :: t)
  | names {ns : List String} {s : List Char} : Listed ns s → Layout (names ns) s

end Selection

/-- The symbols that the parts of a condition must not have: those that are looked for up to its own. -/
def Operator.reserved : Operator → List Char
  | equal => ['=']
  | greater => ['=', '>']
  | less => ['=', '>', '<']

namespace Predicate

def texts : Predicate → List String
  | oneOf values => values
  | above bound => [bound]
  | below bound => [bound]

def WellFormed : Predicate → Prop
  | oneOf values => values ≠ [""] ∧ values ≠ [] ∧ ∀ v ∈ values, Trimmed v.toList ∧ ',' ∉ v.toList
  | above bound => Trimmed bound.toList ∧ bound ≠ ""
  | below bound => Trimmed bound.toList ∧ bound ≠ ""

def Layout : Predicate → List Char → Prop
  | oneOf values, s => Listed values s
  | above bound, s => Padded bound.toList s
  | below bound, s => Padded bound.toList s

end Predicate

namespace Condition

def texts (c : Condition) : List String :=
  c.field :: c.predicate.texts

structure WellFormed (c : Condition) : Prop where
  field_trimmed : Trimmed c.field.toList
  field_ne : c.field ≠ ""
  predicate : c.predicate.WellFormed
  symbols : ∀ t ∈ c.texts, ∀ symbol ∈ c.predicate.operator.reserved, symbol ∉ t.toList
  keywords : ∀ t ∈ c.texts, ¬ Query.whereWord <:+: t.toList ∧ ¬ Query.andWord <:+: t.toList

inductive Layout (c : Condition) : List Char → Prop where
  | mk {s t : List Char} : Padded c.field.toList s → c.predicate.Layout t →
      Layout c (s ++ c.predicate.operator.symbol :: t)

end Condition

namespace Query

structure WellFormed (q : Query) : Prop where
  selection : q.selection.WellFormed
  conditions : ∀ c ∈ q.conditions, c.WellFormed

inductive ClauseLayout : List Condition → List Char → Prop where
  | one {c : Condition} {s : List Char} : c.Layout s → ClauseLayout [c] s
  | cons {c : Condition} {cs : List Condition} {s t : List Char} :
      c.Layout s → ClauseLayout cs t → ClauseLayout (c :: cs) (s ++ (andWord ++ t))

/-- What may follow the word `GET` for a query; its keyword may stand without any conditions. -/
inductive BodyLayout : Query → List Char → Prop where
  | selection {sel : Selection} {s : List Char} : sel.Layout s → BodyLayout ⟨sel, []⟩ s
  | noClause {sel : Selection} {s t : List Char} :
      sel.Layout s → Blank t → BodyLayout ⟨sel, []⟩ (s ++ (whereWord ++ t))
  | clauses {sel : Selection} {cs : List Condition} {s t : List Char} :
      sel.Layout s → ClauseLayout cs t → BodyLayout ⟨sel, cs⟩ (s ++ (whereWord ++ t))

def Layout (q : Query) (s : List Char) : Prop :=
  ∃ p body, Blank p ∧ s = p ++ (getWord ++ body) ∧ q.BodyLayout body

def bare : Query := ⟨.names [""], []⟩

end Query

structure Solid (word : List Char) : Prop where
  ne_nil : word ≠ []
  not_blank : ∀ c ∈ word, isBlank c = false
  not_comma : ',' ∉ word

theorem whereWord_solid : Solid Query.whereWord :=
  ⟨by decide, not_blank_of_all (by decide), by decide⟩

theorem andWord_solid : Solid Query.andWord :=
  ⟨by decide, not_blank_of_all (by decide), by decide⟩

theorem reserved_solid {o : Operator} : ∀ symbol ∈ o.reserved, Solid [symbol] := by
  intro symbol h
  have hcases : symbol = '=' ∨ symbol = '>' ∨ symbol = '<' := by
    cases o <;> simp [Operator.reserved] at h <;> grind
  rcases hcases with rfl | rfl | rfl <;>
    exact ⟨List.cons_ne_nil _ _, not_blank_of_all (by decide), by decide⟩

theorem symbol_mem_reserved (o : Operator) : o.symbol ∈ o.reserved := by
  cases o <;> decide

theorem isBlank_symbol (o : Operator) : isBlank o.symbol = false := by
  cases o <;> decide

theorem symbol_not_mem_whereWord (o : Operator) : o.symbol ∉ Query.whereWord := by
  cases o <;> decide

theorem symbol_not_mem_andWord (o : Operator) : o.symbol ∉ Query.andWord := by
  cases o <;> decide

theorem Listed.pad {vs : List String} {s a b : List Char} (h : Listed vs s) (ha : Blank a)
    (hb : Blank b) : Listed vs (a ++ (s ++ b)) := by
  induction h generalizing a with
  | one hv => exact .one ((hv.append_right hb).append_left ha)
  | cons hv _ ih =>
    have hcons := Listed.cons (hv.append_left ha) (ih blank_nil)
    simpa only [List.nil_append, List.append_assoc, List.cons_append] using hcons

theorem Listed.infix_iff {vs : List String} {s word : List Char} (h : Listed vs s)
    (hword : Solid word) : word <:+: s ↔ ∃ v ∈ vs, word <:+: v.toList := by
  induction h with
  | one hv => simp [hv.infix_iff hword.ne_nil hword.not_blank]
  | cons hv _ ih =>
    rw [infix_append_cons_iff hword.not_comma hword.ne_nil, ih,
      hv.infix_iff hword.ne_nil hword.not_blank]
    simp

theorem Predicate.Layout.infix_iff {p : Predicate} {s word : List Char} (h : p.Layout s)
    (hword : Solid word) : word <:+: s ↔ ∃ t ∈ p.texts, word <:+: t.toList := by
  cases p with
  | oneOf values => exact Listed.infix_iff h hword
  | above bound => simpa [texts] using Padded.infix_iff h hword.ne_nil hword.not_blank
  | below bound => simpa [texts] using Padded.infix_iff h hword.ne_nil hword.not_blank

theorem Condition.Layout.infix_iff {c : Condition} {s word : List Char} (h : c.Layout s)
    (hword : Solid word) (hsymbol : c.predicate.operator.symbol ∉ word) :
    word <:+: s ↔ ∃ t ∈ c.texts, word <:+: t.toList := by
  obtain ⟨hfield, hoperand⟩ := h
  rw [infix_append_cons_iff hsymbol hword.ne_nil, hfield.infix_iff hword.ne_nil hword.not_blank,
    hoperand.infix_iff hword]
  simp [texts]

end AddressLookup
