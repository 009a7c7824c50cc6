import AddressLookup.Text.Split

/-!
Queries: which fields of a record are shown, and which conditions a record has to meet. Every query
has one canonical text, `GET names WHERE field = value, value AND field > value`.
-/

namespace AddressLookup

inductive Operator where
  | equal
  | greater
  | less
  deriving DecidableEq, Repr

namespace Operator

def symbol : Operator → Char
  | equal => '='
  | greater => '>'
  | less => '<'

def searchOrder : List Operator :=
  [equal, greater, less]

end Operator

/-- A test of one field value; values are compared as texts, in code-point order. -/
inductive Predicate where
  | oneOf (values : List String)
  | above (bound : String)
  | below (bound : String)
  deriving DecidableEq, Repr

namespace Predicate

def operator : Predicate → Operator
  | oneOf _ => .equal
  | above _ => .greater
  | below _ => .less

def test : Predicate → String → Bool
  | oneOf values, value => values.contains value
  | above bound, value => decide (bound < value)
  | below bound, value => decide (value < bound)

end Predicate

structure Condition where
  field : String
  predicate : Predicate
  deriving DecidableEq, Repr

inductive Selection where
  | all
  | names (names : List String)
  deriving DecidableEq, Repr

namespace Selection

def isAll : Selection → Bool
  | all => true
  | names _ => false

def selects : Selection → String → Bool
  | all, _ => true
  | names ns, name => ns.contains name

end Selection

structure Query where
  selection : Selection
  conditions : List Condition
  deriving DecidableEq, Repr

namespace Query

def getWord : List Char := ['G', 'E', 'T', ' ']

def whereWord : List Char := ['W', 'H', 'E', 'R', 'E']

def andWord : List Char := ['A', 'N', 'D']

end Query

def listing (values : List String) : List Char :=
  Text.joinWith [',', ' '] (values.map String.toList)

namespace Predicate

def operand : Predicate → List Char
  | oneOf values => listing values
  | above bound => bound.toList
  | below bound => bound.toList

end Predicate

namespace Condition

def chars (c : Condition) : List Char :=
  c.field.toList ++ [' ', c.predicate.operator.symbol, ' '] ++ c.predicate.operand

def text (c : Condition) : String :=
  String.ofList c.chars

end Condition

namespace Selection

def chars : Selection → List Char
  | all => ['*']
  | names ns => listing ns

end Selection

namespace Query

def conditionChars : List Condition → List Char
  | [] => []
  | c :: cs =>
    [' '] ++ whereWord ++ [' '] ++
      Text.joinWith ([' '] ++ andWord ++ [' ']) ((c :: cs).map Condition.chars)

def chars (q : Query) : List Char :=
  getWord ++ q.selection.chars ++ conditionChars q.conditions

def text (q : Query) : String :=
  String.ofList q.chars

end Query

end AddressLookup
