import AddressLookup.Source.Basic

/-!
Sources that answer from a table. A key that the table does not list has no fields; certain keys, and
saving, can be refused for given reasons.
-/

namespace AddressLookup

structure TableSource where
  name : String
  records : Dataset
  refusals : KeyMap String
  saveRefusal : Option String

namespace TableSource

def answer (s : TableSource) (key : String) : Except Error Record :=
  match s.refusals.get? key with
  | some reason => .error (.lookup s.name key reason)
  | none => .ok ((s.records.get? key).getD ∅)

def saveOutcome (s : TableSource) : Except Error Unit :=
  match s.saveRefusal with
  | some reason => .error (.configuration reason)
  | none => .ok ()

instance : FieldSource TableSource Unit where
  name := TableSource.name
  fetch s key w := ⟨s.answer key, s, w⟩
  save s w := ⟨s.saveOutcome, s, w⟩

end TableSource

end AddressLookup
