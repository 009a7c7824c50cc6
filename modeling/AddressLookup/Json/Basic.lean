/-!
Values of the JSON data format. An integer that fits 64 bits stays an integer; every other number is a
double-precision number, held by its bits so that values can be compared exactly.
-/

namespace AddressLookup

inductive JsonNumber where
  | integer (n : Int)
  | float (bits : UInt64)
  deriving DecidableEq, Repr

/-- The members of an object may stand in any order; what is read from a text lists them in the order of their
names, each name once. -/
inductive Json where
  | null
  | bool (b : Bool)
  | number (n : JsonNumber)
  | string (s : String)
  | array (items : List Json)
  | object (members : List (String × Json))
  deriving BEq, Repr, Inhabited

namespace Json

def get? : Json → String → Option Json
  | object members, name => members.lookup name
  | _, _ => none

end Json

end AddressLookup
