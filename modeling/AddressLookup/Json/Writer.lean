import AddressLookup.Json.Number
import AddressLookup.Json.Quoted

/-!
Writing JSON values: in one line without spaces, or indented by two spaces with one member or item to
a line.
-/

namespace AddressLookup.Json

def nullChars : List Char := ['n', 'u', 'l', 'l']

def boolChars : Bool → List Char
  | true => ['t', 'r', 'u', 'e']
  | false => ['f', 'a', 'l', 's', 'e']

mutual

def compactChars : Json → List Char
  | null => nullChars
  | bool b => boolChars b
  | number n => n.chars
  | string s => Quoted.write s
  | array items => '[' :: compactItems items ++ [']']
  | object members => '\x7b' :: compactMembers members ++ ['\x7d']

def compactItems : List Json → List Char
  | [] => []
  | [item] => compactChars item
  | item :: items => compactChars item ++ ',' :: compactItems items

def compactMembers : List (String × Json) → List Char
  | [] => []
  | [(name, value)] => Quoted.write name ++ ':' :: compactChars value
  | (name, value) :: members =>
    Quoted.write name ++ ':' :: compactChars value ++ ',' :: compactMembers members

end

def compact (v : Json) : String :=
  String.ofList v.compactChars

def newLine (level : Nat) : List Char :=
  '\n' :: List.replicate (2 * level) ' '

mutual

def prettyChars (level : Nat) : Json → List Char
  | null => nullChars
  | bool b => boolChars b
  | number n => n.chars
  | string s => Quoted.write s
  | array [] => ['[', ']']
  | array items => '[' :: prettyItems (level + 1) items ++ newLine level ++ [']']
  | object [] => ['\x7b', '\x7d']
  | object members => '\x7b' :: prettyMembers (level + 1) members ++ newLine level ++ ['\x7d']

def prettyItems (level : Nat) : List Json → List Char
  | [] => []
  | [item] => newLine level ++ prettyChars level item
  | item :: items => newLine level ++ prettyChars level item ++ ',' :: prettyItems level items

def prettyMembers (level : Nat) : List (String × Json) → List Char
  | [] => []
  | [(name, value)] => newLine level ++ Quoted.write name ++ ':' :: ' ' :: prettyChars level value
  | (name, value) :: members =>
    newLine level ++ Quoted.write name ++ ':' :: ' ' :: prettyChars level value ++
      ',' :: prettyMembers level members

end

def pretty (v : Json) : String :=
  String.ofList (prettyChars 0 v)

end AddressLookup.Json
