import AddressLookup.KeyMap
import AddressLookup.Query.Parse

/-!
Records and datasets, and what a query makes of a dataset: the records that meet every condition, each
cut down to the selected fields. No record is changed otherwise and none is added.
-/

namespace AddressLookup

/-- Field values under their field names. -/
abbrev Record := KeyMap String

/-- Records under the address they describe. -/
abbrev Dataset := KeyMap Record

def Condition.holds (c : Condition) (r : Record) : Bool :=
  (r.get? c.field).any c.predicate.test

namespace Dataset

def filter (d : Dataset) (conditions : List Condition) : Dataset :=
  conditions.foldl (fun d c => KeyMap.filter d fun _ r => c.holds r) d

def project (d : Dataset) (selection : Selection) : Dataset :=
  if selection.isAll then d
  else KeyMap.mapValues d fun r => r.filter fun name _ => selection.selects name

end Dataset

namespace Query

def apply (q : Query) (d : Dataset) : Dataset :=
  (d.filter q.conditions).project q.selection

def execute (text : String) (d : Dataset) : Except ParseError Dataset :=
  match parse text with
  | .error e => .error e
  | .ok q => .ok (q.apply d)

end Query

end AddressLookup
