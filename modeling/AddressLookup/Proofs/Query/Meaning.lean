import AddressLookup.Dataset

/-! What a query makes of a dataset, record by record: a record stays if it meets every condition, and of
its fields those stay that are selected. -/

namespace AddressLookup

namespace Selection

def restrict (sel : Selection) (r : Record) : Record :=
  KeyMap.filter r fun name _ => sel.selects name

theorem get?_restrict (sel : Selection) (r : Record) (name : String) :
    (sel.restrict r).get? name = if sel.selects name then r.get? name else none := by
  rw [restrict, KeyMap.get?_filter]
  rcases r.get? name with _ | value
  · rw [ite_self]
    rfl
  · exact Option.filter_some

theorem restrict_all (r : Record) : restrict all r = r :=
  KeyMap.ext_get? fun name => get?_restrict all r name

end Selection

theorem Condition.holds_restrict (c : Condition) (sel : Selection) (r : Record) :
    c.holds (sel.restrict r) = (sel.selects c.field && c.holds r) := by
  rw [holds, holds, Selection.get?_restrict]
  cases sel.selects c.field <;> rfl

namespace Query

def admits (q : Query) (r : Record) : Bool :=
  q.conditions.all fun c => c.holds r

end Query

namespace Dataset

theorem get?_filter (d : Dataset) (conditions : List Condition) (key : String) :
    (d.filter conditions).get? key = (d.get? key).filter fun r => conditions.all fun c => c.holds r := by
  induction conditions generalizing d with
  | nil =>
    show d.get? key = (d.get? key).filter fun _ => true
    cases d.get? key <;> rfl
  | cons c conditions ih =>
    have hstep : d.filter (c :: conditions) =
        filter (KeyMap.filter d fun _ r => c.holds r) conditions := rfl
    rw [hstep, ih, KeyMap.get?_filter, Option.filter_filter]
    simp only [List.all_cons]

theorem get?_project (d : Dataset) (sel : Selection) (key : String) :
    (d.project sel).get? key = (d.get? key).map sel.restrict := by
  cases sel with
  | all =>
    show d.get? key = _
    rw [show Selection.all.restrict = id from funext Selection.restrict_all, Option.map_id, id]
  | names ns => exact KeyMap.get?_mapValues d (Selection.names ns).restrict key

end Dataset

theorem Query.get?_apply (q : Query) (d : Dataset) (key : String) :
    (q.apply d).get? key = ((d.get? key).filter q.admits).map q.selection.restrict := by
  rw [apply, Dataset.get?_project, Dataset.get?_filter]
  rfl

end AddressLookup
