import AddressLookup.Dataset
import AddressLookup.Json.Writer

/-!
The fields of a document: each member of a JSON object becomes one field with a text value. Arrays and
objects inside it are kept as compact JSON; a document that is no object has no fields.
-/

namespace AddressLookup

def Json.fieldText : Json → String
  | .null => ""
  | .bool b => String.ofList (boolChars b)
  | .number n => n.text
  | .string s => s
  | nested => nested.compact

def Record.ofDocument : Json → Record
  | .object members => KeyMap.ofList (members.map fun (name, value) => (name, value.fieldText))
  | _ => ∅

end AddressLookup
