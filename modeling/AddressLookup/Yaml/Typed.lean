import AddressLookup.Yaml.Node

/-!
Reading YAML nodes as values of known types. Records take mappings; texts take any scalar as it is
written; numbers and absent values are recognised in plain scalars.
-/

namespace AddressLookup.Yaml.Document

def fieldsOfPairs (d : Document) (names : List String) :
    List (Node × Node) → Option (List (String × Node))
  | [] => some []
  | (key, value) :: pairs =>
    match d.resolve key with
    | .scalar name _ _ =>
      match d.fieldsOfPairs names pairs with
      | none => none
      | some fields =>
        if !names.contains name then some fields
        else if (fields.lookup name).isSome then none
        else some ((name, value) :: fields)
    | _ => none

def fields (d : Document) (names : List String) (n : Node) : Option (List (String × Node)) :=
  match d.resolve n with
  | .mapping pairs => d.fieldsOfPairs names pairs
  | .scalar text style _ => if text.isEmpty && style = .plain then some [] else none
  | _ => none

def text? (d : Document) (n : Node) : Option String :=
  match d.resolve n with
  | .scalar text _ _ => some text
  | _ => none

def digitValue? (base : Nat) (c : Char) : Option Nat :=
  (hexValue? c).filter (· < base)

def digitsValue? (base : Nat) (digits : List Char) : Option Nat :=
  if digits.isEmpty then none
  else digits.foldlM (fun n c => (digitValue? base c).map (base * n + ·)) 0

/-- The number of a plain text: in base ten without leading zeros, or after `0x`, `0o` or `0b`. -/
def natural? (text : List Char) : Option Nat :=
  let unsigned := if text.head? = some '+' then text.drop 1 else text
  match unsigned with
  | '0' :: 'x' :: rest => digitsValue? 16 rest
  | '0' :: 'o' :: rest => digitsValue? 8 rest
  | '0' :: 'b' :: rest => digitsValue? 2 rest
  | ['0'] => some 0
  | '0' :: _ => none
  | _ => digitsValue? 10 unsigned

def integerTag : TagName := .ofString "tag:yaml.org,2002:int"

def nullTag : TagName := .ofString "tag:yaml.org,2002:null"

def natural (d : Document) (limit : Nat) (n : Node) : Option Nat :=
  match d.resolve n with
  | .scalar text style tag =>
    if style = .plain || style = .literal && tag = some integerTag then
      (natural? text.toList).filter (· < limit)
    else none
  | _ => none

def isNullText (text : String) : Bool :=
  ["null", "Null", "NULL", "~"].contains text

def optional {α : Type} (d : Document) (value : Node → Option α) (n : Node) : Option (Option α) :=
  match d.resolve n with
  | .scalar text .plain (some tag) =>
    if tag = nullTag then if isNullText text then some none else none else (value n).map some
  | .scalar text .plain none =>
    if text.isEmpty || isNullText text then some none else (value n).map some
  | _ => (value n).map some

def fieldOr {α : Type} (fields : List (String × Node)) (name : String) (absent : α)
    (value : Node → Option α) : Option α :=
  match fields.lookup name with
  | some n => value n
  | none => some absent

end AddressLookup.Yaml.Document
