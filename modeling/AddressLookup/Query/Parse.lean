import AddressLookup.Query.Basic
import AddressLookup.Text.Blank

/-!
Reading a query. Keywords are found as plain substrings, white space around every part is dropped,
and the first fault in text order is the one reported.
-/

namespace AddressLookup.Query

inductive ParseError where
  | missingGet
  | repeatedWhere
  | noOperator (clause : String)
  | malformed (clause : String)
  deriving DecidableEq, Repr

namespace ParseError

def message : ParseError → String
  | missingGet => "Invalid query format: query must start with \"GET \""
  | repeatedWhere => "Syntax error: multiple WHERE"
  | noOperator clause => "Syntax error: invalid condition (no operator): '" ++ clause ++ "'"
  | malformed clause => "Syntax error: invalid condition: '" ++ clause ++ "'"

end ParseError

def commaParts (s : List Char) : List String :=
  (Text.splitOn ',' s).map fun part => String.ofList (Text.trim part)

def selectionOf (s : List Char) : Selection :=
  let names := commaParts s
  if names.head? = some "*" then .all else .names names

def predicateOf (operator : Operator) (operand : List Char) : Predicate :=
  match operator with
  | .equal => .oneOf (commaParts operand)
  | .greater => .above (String.ofList operand)
  | .less => .below (String.ofList operand)

/-- A clause is cut at its operator, which may occur only once and needs text on both sides. -/
def conditionOf (clause : List Char) : Except ParseError Condition :=
  match Operator.searchOrder.find? fun operator => clause.contains operator.symbol with
  | none => .error (.noOperator (String.ofList clause))
  | some operator =>
    match (Text.splitOn operator.symbol clause).map Text.trim with
    | [field, operand] =>
      if field.isEmpty || operand.isEmpty then .error (.malformed (String.ofList clause))
      else .ok ⟨String.ofList field, predicateOf operator operand⟩
    | _ => .error (.malformed (String.ofList clause))

def conditionsOf : List (List Char) → Except ParseError (List Condition)
  | [] => .ok []
  | clause :: clauses =>
    match conditionOf (Text.trim clause) with
    | .error e => .error e
    | .ok condition =>
      match conditionsOf clauses with
      | .error e => .error e
      | .ok conditions => .ok (condition :: conditions)

def parseBody (body : List Char) : Except ParseError Query :=
  match Text.splitWord whereWord body with
  | [] => .ok ⟨selectionOf [], []⟩
  | [names] => .ok ⟨selectionOf names, []⟩
  | [names, clauses] =>
    if (Text.trim clauses).isEmpty then .ok ⟨selectionOf names, []⟩
    else
      match conditionsOf (Text.splitWord andWord clauses) with
      | .error e => .error e
      | .ok conditions => .ok ⟨selectionOf names, conditions⟩
  | _ => .error .repeatedWhere

def parseChars (s : List Char) : Except ParseError Query :=
  match getWord.isPrefixOf? (Text.trim s) with
  | none => .error .missingGet
  | some body => parseBody body

def parse (text : String) : Except ParseError Query :=
  parseChars text.toList

end AddressLookup.Query
