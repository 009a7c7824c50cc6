import AddressLookup.Proofs.Query.Grammar
import AddressLookup.Proofs.Query.Pointwise
import Mathlib.Data.Finset.Dedup

/-! What a query does depends on sets only. The names that it shows, its conditions and the values of an
equality may be listed in any order and any number of times. -/

namespace AddressLookup

def Operator.Relates : Operator → String → String → Prop
  | equal, value, text => value = text
  | greater, value, text => text < value
  | less, value, text => value < text

namespace Predicate

theorem test_iff_exists (p : Predicate) (value : String) :
    p.test value = true ↔ ∃ text ∈ p.texts, p.operator.Relates value text := by
  cases p with
  | oneOf values => simp [test, texts, operator, Operator.Relates]
  | above bound => simp [test, texts, operator, Operator.Relates]
  | below bound => simp [test, texts, operator, Operator.Relates]

end Predicate

namespace Condition

def asSets (c : Condition) : String × Operator × Finset String :=
  (c.field, c.predicate.operator, c.predicate.texts.toFinset)

theorem holds_iff_exists (c : Condition) (r : Record) : c.holds r = true ↔
    ∃ value, r.get? c.field = some value ∧
      ∃ text ∈ c.predicate.texts, c.predicate.operator.Relates value text := by
  rw [holds, Option.any_eq_true]
  exact exists_congr fun value => and_congr_right fun _ => c.predicate.test_iff_exists value

theorem holds_of_asSets_eq {c c' : Condition} (h : c.asSets = c'.asSets) (r : Record) :
    c.holds r = c'.holds r := by
  obtain ⟨hfield, hrest⟩ := Prod.mk.inj h
  obtain ⟨hoperator, htexts⟩ := Prod.mk.inj hrest
  have hmem (text : String) : text ∈ c.predicate.texts ↔ text ∈ c'.predicate.texts := by
    rw [← List.mem_toFinset, htexts, List.mem_toFinset]
  rw [Bool.eq_iff_iff, holds_iff_exists, holds_iff_exists, hfield, hoperator]
  simp only [hmem]

end Condition

namespace Selection

def asSets : Selection → Option (Finset String)
  | all => none
  | names ns => some ns.toFinset

theorem selects_of_asSets_eq {sel sel' : Selection} (h : sel.asSets = sel'.asSets) (name : String) :
    sel.selects name = sel'.selects name := by
  cases sel with
  | all =>
    cases sel' with
    | all => rfl
    | names ns => cases h
  | names ns =>
    cases sel' with
    | all => cases h
    | names ns' =>
      have hsets : ns.toFinset = ns'.toFinset := Option.some.inj h
      rw [Bool.eq_iff_iff, selects, selects, List.contains_iff_mem, List.contains_iff_mem,
        ← List.mem_toFinset, hsets, List.mem_toFinset]

theorem restrict_of_asSets_eq {sel sel' : Selection} (h : sel.asSets = sel'.asSets) :
    sel.restrict = sel'.restrict := by
  funext r
  refine KeyMap.ext_get? fun name => ?_
  rw [get?_restrict, get?_restrict, selects_of_asSets_eq h]

end Selection

namespace Query

/-- A query as sets: the names it shows, and its conditions with the values of each as a set. -/
def asSets (q : Query) : Option (Finset String) × Finset (String × Operator × Finset String) :=
  (q.selection.asSets, (q.conditions.map Condition.asSets).toFinset)

theorem admits_of_subset {q q' : Query} {r : Record}
    (hsub : (q'.conditions.map Condition.asSets).toFinset ⊆ (q.conditions.map Condition.asSets).toFinset)
    (h : q.admits r = true) : q'.admits r = true := by
  rw [admits, List.all_eq_true] at h ⊢
  intro c' hc'
  have hmem := hsub (List.mem_toFinset.2 (List.mem_map_of_mem hc'))
  obtain ⟨c, hc, hsets⟩ := List.mem_map.1 (List.mem_toFinset.1 hmem)
  rw [← Condition.holds_of_asSets_eq hsets]
  exact h c hc

theorem admits_of_asSets_eq {q q' : Query} (h : q.asSets = q'.asSets) : q.admits = q'.admits := by
  have hconditions := (Prod.mk.inj h).2
  funext r
  rw [Bool.eq_iff_iff]
  exact ⟨admits_of_subset hconditions.ge, admits_of_subset hconditions.le⟩

/-- Queries that are equal as sets do the same to every dataset. -/
theorem apply_of_asSets_eq {q q' : Query} (h : q.asSets = q'.asSets) (d : Dataset) :
    q.apply d = q'.apply d := by
  refine KeyMap.ext_get? fun key => ?_
  rw [get?_apply, get?_apply, admits_of_asSets_eq h, Selection.restrict_of_asSets_eq (Prod.mk.inj h).1]

/-- Names, conditions and values in another order and repeated, with an equality that is there twice in two
spellings. -/
theorem apply_of_asSets_eq_repeated :
    let q : Query := ⟨.names ["b", "a", "b"],
      [⟨"x", .oneOf ["1", "2"]⟩, ⟨"y", .above ""⟩, ⟨"x", .oneOf ["2", "1", "1"]⟩]⟩
    let q' : Query := ⟨.names ["a", "b"],
      [⟨"y", .above ""⟩, ⟨"y", .above ""⟩, ⟨"x", .oneOf ["2", "1"]⟩]⟩
    let r : Record := ⟨[("a", "z"), ("x", "2"), ("y", "0")], by decide⟩
    let d : Dataset := ⟨[("k", r), ("l", ∅)], by decide⟩
    q.asSets = q'.asSets ∧ q.apply d = q'.apply d ∧ (q.apply d).keys = ["k"] := by
  intro q q' r d
  have hsets : q.asSets = q'.asSets := by decide
  exact ⟨hsets, apply_of_asSets_eq hsets d, by decide⟩

end Query

end AddressLookup
