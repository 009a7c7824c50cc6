import AddressLookup.Proofs.Query.Canonical
import AddressLookup.Proofs.Query.Conjunction
import AddressLookup.Proofs.Query.Sets

/-! Comparing a field with a text divides the records that have the field into three parts. The value is less
than the text, equal to it or greater, and never two of these. -/

namespace AddressLookup

open Text

structure Token (s : String) : Prop where
  trimmed : Trimmed s.toList
  ne_empty : s ≠ ""
  symbols : ∀ symbol ∈ ['=', '>', '<', ','], symbol ∉ s.toList
  keywords : ¬ Query.whereWord <:+: s.toList ∧ ¬ Query.andWord <:+: s.toList

namespace Operator

theorem exists_relates (value text : String) : ∃ o : Operator, o.Relates value text := by
  by_cases hlt : value < text
  · exact ⟨less, hlt⟩
  · by_cases hgt : text < value
    · exact ⟨greater, hgt⟩
    · exact ⟨equal, String.le_antisymm hgt hlt⟩

theorem Relates.unique {o o' : Operator} {value text : String} (h : o.Relates value text)
    (h' : o'.Relates value text) : o = o' := by
  cases o with
  | equal =>
    obtain rfl : value = text := h
    cases o' with
    | equal => rfl
    | greater => exact absurd h' (String.lt_irrefl value)
    | less => exact absurd h' (String.lt_irrefl value)
  | greater =>
    cases o' with
    | equal => exact absurd h' (String.ne_of_lt h).symm
    | greater => rfl
    | less => exact absurd h' (String.lt_asymm h)
  | less =>
    cases o' with
    | equal => exact absurd h' (String.ne_of_lt h)
    | greater => exact absurd h' (String.lt_asymm h)
    | less => rfl

def comparison : Operator → String → Predicate
  | equal, text => .oneOf [text]
  | greater, text => .above text
  | less, text => .below text

theorem operator_comparison (o : Operator) (text : String) : (o.comparison text).operator = o := by
  cases o <;> rfl

theorem texts_comparison (o : Operator) (text : String) : (o.comparison text).texts = [text] := by
  cases o <;> rfl

theorem operand_comparison (o : Operator) (text : String) : (o.comparison text).operand = text.toList := by
  cases o with
  | equal => exact joinWith_singleton [',', ' '] text.toList
  | greater => rfl
  | less => rfl

theorem reserved_subset (o : Operator) : o.reserved ⊆ ['=', '>', '<', ','] := by
  cases o <;> decide

end Operator

section

variable {field text : String} (o : Operator)

theorem Token.wellFormed_comparison (h : Token text) : (o.comparison text).WellFormed := by
  cases o with
  | equal =>
    refine ⟨by simpa using h.ne_empty, List.cons_ne_nil _ _, fun v hv => ?_⟩
    rw [List.mem_singleton.1 hv]
    exact ⟨h.trimmed, h.symbols ',' (by decide)⟩
  | greater => exact ⟨h.trimmed, h.ne_empty⟩
  | less => exact ⟨h.trimmed, h.ne_empty⟩

theorem Condition.wellFormed_comparison (hfield : Token field) (htext : Token text) :
    Condition.WellFormed ⟨field, o.comparison text⟩ := by
  have htoken (t : String) (ht : t ∈ Condition.texts ⟨field, o.comparison text⟩) : Token t := by
    rw [texts, Operator.texts_comparison] at ht
    rcases List.mem_pair.1 ht with rfl | rfl
    · exact hfield
    · exact htext
  refine ⟨hfield.trimmed, hfield.ne_empty, htext.wellFormed_comparison o, fun t ht symbol hsymbol => ?_,
    fun t ht => (htoken t ht).keywords⟩
  rw [Operator.operator_comparison] at hsymbol
  exact (htoken t ht).symbols symbol (o.reserved_subset hsymbol)

theorem Condition.holds_comparison_iff (r : Record) : Condition.holds ⟨field, o.comparison text⟩ r = true ↔
    ∃ value, r.get? field = some value ∧ o.Relates value text := by
  rw [holds_iff_exists, Operator.operator_comparison, Operator.texts_comparison]
  simp only [List.mem_singleton, exists_eq_left]

end

namespace Query

theorem parse_single {c : Condition} (hc : c.WellFormed) :
    parse ("GET * WHERE " ++ c.text) = .ok ⟨.all, [c]⟩ := by
  have hlayout : ClauseLayout [c] c.text.toList := by
    have hclause := ClauseLayout.one (Condition.layout_chars hc blank_nil blank_nil)
    rwa [List.append_nil, List.nil_append, ← String.toList_ofList (l := c.chars)] at hclause
  obtain ⟨hfree, hconditions⟩ := conditionsOf_of_clauseLayout (List.forall_mem_singleton.2 hc) hlayout
  have hplain : Plain "*" c.text := ⟨by decide, hfree, not_blank_of_clauseLayout hlayout⟩
  have hstar : selectionOf "*".toList = .all := by decide
  have hparse := hplain.parse_eq
  rw [clauseConditions, hconditions, hstar] at hparse
  exact hparse

theorem parse_comparison {field text : String} (hfield : Token field) (htext : Token text) (o : Operator) :
    parse ("GET * WHERE " ++ field ++ String.ofList [' ', o.symbol, ' '] ++ text) =
      .ok ⟨.all, [⟨field, o.comparison text⟩]⟩ := by
  rw [← parse_single (Condition.wellFormed_comparison o hfield htext)]
  congr 1
  rw [← String.toList_inj]
  simp [Condition.text, Condition.chars, Operator.operator_comparison, Operator.operand_comparison]

theorem admits_single (sel : Selection) (c : Condition) : admits ⟨sel, [c]⟩ = c.holds := by
  funext r
  simp only [admits, List.all_cons, List.all_nil, Bool.and_true]

def part (field text : String) (d : Dataset) (o : Operator) : Dataset :=
  apply ⟨.all, [⟨field, o.comparison text⟩]⟩ d

section

variable (field text : String) (d : Dataset)

theorem get?_part (o : Operator) (key : String) : (part field text d o).get? key =
    (d.get? key).filter (Condition.holds ⟨field, o.comparison text⟩) := by
  rw [part, get?_apply, admits_single, show Selection.all.restrict = id from funext Selection.restrict_all,
    Option.map_id, id]

theorem contains_part (o : Operator) (key : String) : (part field text d o).contains key = true ↔
    ∃ r value, d.get? key = some r ∧ r.get? field = some value ∧ o.Relates value text := by
  rw [part, contains_apply]
  refine exists_congr fun r => ?_
  rw [exists_and_left, ← Condition.holds_comparison_iff, admits_single]

theorem part_disjoint {o o' : Operator} (hne : o ≠ o') (key : String)
    (h : (part field text d o).contains key = true) : (part field text d o').contains key = false := by
  refine Bool.eq_false_iff.2 fun h' => hne ?_
  obtain ⟨r, value, hr, hvalue, hrelates⟩ := (contains_part field text d o key).1 h
  obtain ⟨r', value', hr', hvalue', hrelates'⟩ := (contains_part field text d o' key).1 h'
  obtain rfl : r = r' := Option.some.inj (hr.symm.trans hr')
  obtain rfl : value = value' := Option.some.inj (hvalue.symm.trans hvalue')
  exact hrelates.unique hrelates'

theorem override_part : ((part field text d .less).override (part field text d .equal)).override
    (part field text d .greater) = KeyMap.filter d fun _ r => r.contains field := by
  refine KeyMap.ext_get? fun key => ?_
  simp only [KeyMap.get?_override, get?_part, KeyMap.get?_filter]
  cases d.get? key with
  | none => rfl
  | some r =>
    cases hvalue : r.get? field with
    | none => simp [Option.filter_some, KeyMap.contains, Condition.holds, hvalue]
    | some value =>
      obtain ⟨o, ho⟩ := Operator.exists_relates value text
      have hone (o' : Operator) : Condition.holds ⟨field, o'.comparison text⟩ r = decide (o' = o) := by
        rw [Bool.eq_iff_iff, Condition.holds_comparison_iff, decide_eq_true_iff]
        constructor
        · rintro ⟨value', hvalue', ho'⟩
          obtain rfl : value = value' := Option.some.inj (hvalue.symm.trans hvalue')
          exact ho'.unique ho
        · rintro rfl
          exact ⟨value, hvalue, ho⟩
      cases o <;> simp [Option.filter_some, KeyMap.contains, hone, hvalue]

end

/-- The queries with the three operators divide the records that have the field: they all can be read, no key
is in the results of two of them, and together the results are all these records, unchanged. -/
theorem parse_trichotomy {field text : String} (hfield : Token field) (htext : Token text) :
    ∃ less equal greater : Query,
      parse ("GET * WHERE " ++ field ++ " < " ++ text) = .ok less ∧
      parse ("GET * WHERE " ++ field ++ " = " ++ text) = .ok equal ∧
      parse ("GET * WHERE " ++ field ++ " > " ++ text) = .ok greater ∧
      ∀ d : Dataset,
        [less.apply d, equal.apply d, greater.apply d].Pairwise
          (fun a b => ∀ key, a.contains key = true → b.contains key = false) ∧
        ((less.apply d).override (equal.apply d)).override (greater.apply d) =
          KeyMap.filter d fun _ r => r.contains field := by
  refine ⟨_, _, _, parse_comparison hfield htext .less, parse_comparison hfield htext .equal,
    parse_comparison hfield htext .greater, fun d => ⟨?_, override_part field text d⟩⟩
  have hnodup : [Operator.less, .equal, .greater].Nodup := by decide
  exact List.Pairwise.map (part field text d) (fun _ _ hne => part_disjoint field text d hne) hnodup

/-- A value that begins the text, one that the text begins, the empty value, and a record without the field. -/
theorem parse_trichotomy_of_prefixes :
    let record (value : String) : Record := ⟨[("last name", value)], List.pairwise_singleton _ _⟩
    let d : Dataset := ⟨[("a", record ""), ("b", record "Ng"), ("c", record "Ngo"), ("d", record "Ngo\x00"),
      ("e", ∅), ("f", record "\u00D1")], by decide⟩
    Token "last name" ∧ Token "Ngo" ∧
      ∃ less equal greater : Query,
        parse "GET * WHERE last name < Ngo" = .ok less ∧ parse "GET * WHERE last name = Ngo" = .ok equal ∧
        parse "GET * WHERE last name > Ngo" = .ok greater ∧
        (((less.apply d).override (equal.apply d)).override (greater.apply d)).keys =
          ["a", "b", "c", "d", "f"] := by
  intro record d
  have hfield : Token "last name" := ⟨by decide, by decide, by simp, by decide +kernel⟩
  have htext : Token "Ngo" := ⟨by decide, by decide, by simp, by decide +kernel⟩
  have htexts : "GET * WHERE " ++ "last name" ++ " < " ++ "Ngo" = "GET * WHERE last name < Ngo" ∧
      "GET * WHERE " ++ "last name" ++ " = " ++ "Ngo" = "GET * WHERE last name = Ngo" ∧
      "GET * WHERE " ++ "last name" ++ " > " ++ "Ngo" = "GET * WHERE last name > Ngo" := by simp
  obtain ⟨less, equal, greater, hless, hequal, hgreater, hparts⟩ := parse_trichotomy hfield htext
  rw [htexts.1] at hless
  rw [htexts.2.1] at hequal
  rw [htexts.2.2] at hgreater
  refine ⟨hfield, htext, less, equal, greater, hless, hequal, hgreater, ?_⟩
  rw [(hparts d).2]
  decide

end Query

end AddressLookup
