import AddressLookup.Proofs.Report.Lossless

/-! What the JSON report on a query keeps. The query can be had back from it, so two queries have the same
report only if they are the same, also where a name or a value is a star. -/

namespace AddressLookup

namespace Json

variable {α : Type}

def asList? (read : Json → Option α) : Json → Option (List α)
  | array items => items.mapM read
  | _ => none

theorem asList?_array {read : Json → Option α} {write : α → Json} (h : ∀ a, read (write a) = some a)
    (xs : List α) : asList? read (array (xs.map write)) = some xs := by
  rw [asList?, List.mapM_map]
  simp only [Function.comp_def, h]
  exact List.mapM_pure.trans (congrArg some (List.map_id xs))

theorem regular_array {kind : JsonNumber → Prop} {write : α → Json} (h : ∀ a, Regular kind (write a))
    (xs : List α) : Regular kind (array (xs.map write)) := by
  refine .array fun v hv => ?_
  obtain ⟨a, -, rfl⟩ := List.mem_map.1 hv
  exact h a

theorem nesting_array_le {write : α → Json} {depth : Nat} (h : ∀ a, (write a).nesting ≤ depth)
    (xs : List α) : (array (xs.map write)).nesting ≤ depth + 1 := by
  refine nesting_array_le_iff.2 fun v hv => ?_
  obtain ⟨a, -, rfl⟩ := List.mem_map.1 hv
  exact h a

section

variable {kind : JsonNumber → Prop} {name name' : String} {v v' : Json}

theorem forall_mem_pair {p : α → Prop} {a b : α} : (∀ x ∈ [a, b], p x) ↔ p a ∧ p b := by
  rw [List.forall_mem_cons, List.forall_mem_singleton]

theorem regular_pair (hlt : name < name') (hv : Regular kind v) (hv' : Regular kind v') :
    Regular kind (object [(name, v), (name', v')]) :=
  .object (List.pairwise_pair.2 hlt) (forall_mem_pair.2 ⟨hv, hv'⟩)

theorem nesting_pair_le {depth : Nat} (hv : v.nesting ≤ depth) (hv' : v'.nesting ≤ depth) :
    (object [(name, v), (name', v')]).nesting ≤ depth + 1 :=
  nesting_object_le_iff.2 (forall_mem_pair.2 ⟨hv, hv'⟩)

end

end Json

open Json

def Selection.ofJson? : Json → Option Selection
  | .string s => if s = "*" then some .all else none
  | v => (asList? asText? v).map .names

def Operator.ofText? (s : String) : Option Operator :=
  searchOrder.find? fun o => String.singleton o.symbol = s

def Predicate.ofOperand? : Operator → Json → Option Predicate
  | .equal, v => (asList? asText? v).map .oneOf
  | .greater, v => (asText? v).map .above
  | .less, v => (asText? v).map .below

def Predicate.ofJson? (v : Json) : Option Predicate := do
  let operator ← ((v.get? "op").bind asText?).bind Operator.ofText?
  (v.get? "operand").bind (ofOperand? operator)

def Condition.ofJson? (v : Json) : Option Condition := do
  let field ← (v.get? "field").bind asText?
  let predicate ← (v.get? "predicate").bind Predicate.ofJson?
  return ⟨field, predicate⟩

def Query.ofJson? (v : Json) : Option Query := do
  let selection ← (v.get? "fields").bind Selection.ofJson?
  let conditions ← (v.get? "conditions").bind (asList? Condition.ofJson?)
  return ⟨selection, conditions⟩

theorem Selection.ofJson?_toJson (sel : Selection) : ofJson? sel.toJson = some sel := by
  cases sel with
  | all => rfl
  | names ns => exact congrArg (Option.map names) (asList?_array asText?_string ns)

theorem Operator.ofText?_symbol (o : Operator) : ofText? (String.singleton o.symbol) = some o := by
  cases o <;> decide

theorem Predicate.ofOperand?_operandJson (p : Predicate) : ofOperand? p.operator p.operandJson = some p := by
  cases p with
  | oneOf values => exact congrArg (Option.map oneOf) (asList?_array asText?_string values)
  | above bound => rfl
  | below bound => rfl

theorem Condition.ofJson?_toJson (c : Condition) : ofJson? c.toJson = some c := by
  have hpredicate : Predicate.ofJson? (.object
      [("op", .string (String.singleton c.predicate.operator.symbol)), ("operand", c.predicate.operandJson)]) =
        some c.predicate := by
    simp [Predicate.ofJson?, Json.get?, KeyMap.lookup_cons, asText?, Operator.ofText?_symbol,
      Predicate.ofOperand?_operandJson]
  simp [ofJson?, toJson, Json.get?, KeyMap.lookup_cons, asText?, hpredicate]

theorem Predicate.regular_operandJson (kind : JsonNumber → Prop) (p : Predicate) :
    Regular kind p.operandJson := by
  cases p with
  | oneOf values => exact regular_array Regular.string values
  | above bound => exact .string bound
  | below bound => exact .string bound

theorem Predicate.nesting_operandJson_le (p : Predicate) : p.operandJson.nesting ≤ 1 := by
  cases p with
  | oneOf values => exact nesting_array_le (fun _ => Nat.le_refl 0) values
  | above bound => exact Nat.zero_le 1
  | below bound => exact Nat.zero_le 1

theorem Selection.regular_toJson (kind : JsonNumber → Prop) (sel : Selection) : Regular kind sel.toJson := by
  cases sel with
  | all => exact .string "*"
  | names ns => exact regular_array Regular.string ns

theorem Selection.nesting_toJson_le (sel : Selection) : sel.toJson.nesting ≤ 1 := by
  cases sel with
  | all => exact Nat.zero_le 1
  | names ns => exact nesting_array_le (fun _ => Nat.le_refl 0) ns

theorem Condition.regular_toJson (kind : JsonNumber → Prop) (c : Condition) : Regular kind c.toJson := by
  have hpredicate := regular_pair (by decide : "op" < "operand")
    (.string (String.singleton c.predicate.operator.symbol)) (c.predicate.regular_operandJson kind)
  exact regular_pair (by decide : "field" < "predicate") (.string c.field) hpredicate

theorem Condition.nesting_toJson_le (c : Condition) : c.toJson.nesting ≤ 3 :=
  nesting_pair_le (Nat.zero_le 2) (nesting_pair_le (Nat.zero_le 1) c.predicate.nesting_operandJson_le)

def Query.document (q : Query) : Json :=
  .object [("conditions", .array (q.conditions.map Condition.toJson)), ("fields", q.selection.toJson)]

theorem Query.ofJson?_document (q : Query) : ofJson? q.document = some q := by
  simp [ofJson?, document, Json.get?, KeyMap.lookup_cons, Selection.ofJson?_toJson,
    asList?_array Condition.ofJson?_toJson]

namespace Report

theorem spells_query (q : Query) : Spells depthLimit (q.toJson.prettyChars 0) q.document := by
  have hfields := Nat.le_trans q.selection.nesting_toJson_le (by decide : 1 ≤ 126)
  have hconditions := nesting_array_le Condition.nesting_toJson_le q.conditions
  exact spells_prettyChars_object (d := 126) (List.pairwise_pair.2 (by decide : "conditions" < "fields"))
    (fun name => rfl) (forall_mem_pair.2
      ⟨spells_prettyChars (q.selection.regular_toJson _) hfields,
        spells_prettyChars (regular_array (Condition.regular_toJson _) q.conditions)
          (Nat.le_trans hconditions (by decide))⟩) 0

theorem parse_ofQuery (color : Bool) (q : Query) : Json.parse (ofQuery .json color q) = some q.document := by
  refine parse_of_spells ?_
  have htext : (ofQuery .json color q).toList = [] ++ (q.toJson.prettyChars 0 ++ ['\n']) := String.toList_ofList
  rw [htext]
  exact .space gap_nil (spells_query q) (gap_newLine 0)

theorem ofJson?_parse_ofQuery (color : Bool) (q : Query) :
    (Json.parse (ofQuery .json color q)).bind Query.ofJson? = some q := by
  rw [parse_ofQuery]
  exact q.ofJson?_document

theorem ofQuery_json_inj {color color' : Bool} {q q' : Query} :
    ofQuery .json color q = ofQuery .json color' q' ↔ q = q' := by
  constructor
  · intro h
    have hread := ofJson?_parse_ofQuery color q
    rw [h, ofJson?_parse_ofQuery color' q'] at hread
    exact (Option.some.inj hread).symm
  · rintro rfl
    rfl

/-- No two queries have the same report. In particular the selection of all fields is told from the one name
`*`, and at one place in the list of conditions an equality with one value is told from a bound of that text on
either side. -/
theorem ofQuery_json_unambiguous (color color' : Bool) :
    let report := ofQuery .json color
    let report' := ofQuery .json color'
    (∀ q q', report q = report' q' ↔ q = q') ∧
    (∀ cs cs', report ⟨.all, cs⟩ ≠ report' ⟨.names ["*"], cs'⟩) ∧
    ∀ text before, [Predicate.oneOf [text], .above text, .below text].Pairwise fun p p' =>
      ∀ sel sel' field field' after after',
        report ⟨sel, before ++ ⟨field, p⟩ :: after⟩ ≠ report' ⟨sel', before ++ ⟨field', p'⟩ :: after'⟩ := by
  refine ⟨fun q q' => ofQuery_json_inj, fun cs cs' h => ?_, fun text before => ?_⟩
  · have hselection := congrArg Query.selection (ofQuery_json_inj.1 h)
    cases hselection
  · have hdistinct : [Predicate.oneOf [text], .above text, .below text].Nodup := by simp
    refine hdistinct.imp fun hne sel sel' field field' after after' h => hne ?_
    have hconditions := congrArg Query.conditions (ofQuery_json_inj.1 h)
    have hcondition := (List.cons_eq_cons.1 (List.append_cancel_left hconditions)).1
    exact congrArg Condition.predicate hcondition

end Report

end AddressLookup
