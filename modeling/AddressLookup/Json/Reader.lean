import AddressLookup.Json.Number
import AddressLookup.Json.Quoted
import AddressLookup.KeyMap

/-!
Reading JSON texts. Arrays and objects may be nested up to a given depth, a repeated member keeps its
last value, and nothing but white space may follow the value.
-/

namespace AddressLookup.Json

def isSpace (c : Char) : Bool :=
  c = ' ' || c = '\t' || c = '\n' || c = '\r'

def skipSpace (s : List Char) : List Char :=
  s.dropWhile isSpace

abbrev Step (α : Type) := List Char → Option (α × List Char)

variable {α : Type}

def readItems (item : Step α) (close : Char) : Nat → Step (List α)
  | 0, _ => none
  | fuel + 1, s =>
    match item s with
    | none => none
    | some (x, rest) =>
      match skipSpace rest with
      | [] => none
      | c :: more =>
        if c = close then some ([x], more)
        else if c = ',' then
          match readItems item close fuel more with
          | none => none
          | some (xs, more) => some (x :: xs, more)
        else none

def readSequence (item : Step α) (close : Char) : Step (List α) := fun s =>
  match skipSpace s with
  | [] => none
  | c :: rest => if c = close then some ([], rest) else readItems item close (rest.length + 1) (c :: rest)

def readName : Step String := fun s =>
  match skipSpace s with
  | '"' :: rest =>
    match Quoted.read rest with
    | none => none
    | some (name, rest) =>
      match skipSpace rest with
      | ':' :: rest => some (name, rest)
      | _ => none
  | _ => none

def readMember (value : Step α) : Step (String × α) := fun s =>
  match readName s with
  | none => none
  | some (name, rest) => (value rest).map fun (v, rest) => ((name, v), rest)

/-- Members in the order of their names; of members with one name the last. -/
def arrange (members : List (String × α)) : List (String × α) :=
  (KeyMap.ofList members).entries

def readWord (word : List Char) (value : Json) : Step Json := fun s =>
  (word.isPrefixOf? s).map (value, ·)

def readScalar : Step Json := fun s =>
  match s with
  | 'n' :: _ => readWord ['n', 'u', 'l', 'l'] null s
  | 't' :: _ => readWord ['t', 'r', 'u', 'e'] (bool true) s
  | 'f' :: _ => readWord ['f', 'a', 'l', 's', 'e'] (bool false) s
  | '"' :: rest => (Quoted.read rest).map fun (t, rest) => (string t, rest)
  | _ => (JsonNumber.read s).map fun (n, rest) => (number n, rest)

/-- Reads a value in which arrays and objects are nested at most `depth` deep. -/
def readValue : Nat → Step Json
  | 0, s => readScalar (skipSpace s)
  | depth + 1, s =>
    match skipSpace s with
    | '[' :: rest => (readSequence (readValue depth) ']' rest).map fun (vs, rest) => (array vs, rest)
    | '\x7b' :: rest =>
      (readSequence (readMember (readValue depth)) '\x7d' rest).map fun (ms, rest) =>
        (object (arrange ms), rest)
    | s => readScalar s

def depthLimit : Nat := 127

def parseChars (depth : Nat) (s : List Char) : Option Json :=
  match readValue depth s with
  | none => none
  | some (v, rest) => if (skipSpace rest).isEmpty then some v else none

def parse (text : String) : Option Json :=
  parseChars depthLimit text.toList

end AddressLookup.Json
