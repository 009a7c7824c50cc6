import AddressLookup.Dataset
import AddressLookup.Json.Writer

/-!
Reports on datasets and queries, as lines of text or as indented JSON. The text of a dataset has a line
for each key, the fields of its record below it, and the number of records at the end.
-/

namespace AddressLookup

def Record.toJson (r : Record) : Json :=
  .object (r.entries.map fun (name, value) => (name, .string value))

def Dataset.toJson (d : Dataset) : Json :=
  .object (d.entries.map fun (key, r) => (key, Record.toJson r))

def Selection.toJson : Selection → Json
  | .all => .string "*"
  | .names ns => .array (ns.map .string)

def Predicate.operandJson : Predicate → Json
  | .oneOf values => .array (values.map .string)
  | .above bound => .string bound
  | .below bound => .string bound

def Condition.toJson (c : Condition) : Json :=
  .object [("field", .string c.field),
    ("predicate", .object [("op", .string (String.singleton c.predicate.operator.symbol)),
      ("operand", c.predicate.operandJson)])]

def Query.toJson (q : Query) : Json :=
  .object [("fields", q.selection.toJson), ("conditions", .array (q.conditions.map Condition.toJson))]

namespace Report

inductive Format where
  | text
  | json
  deriving DecidableEq, Repr

def styleCode (style : List Char) : List Char :=
  '\x1b' :: '[' :: style ++ ['m']

def plain : List Char := styleCode ['0']

def boldCyan : List Char := styleCode ['1', ';', '3', '6']

def bold : List Char := styleCode ['1']

def dimmed : List Char := styleCode ['2']

/-- Sets a text in a style, which is taken up again wherever the text itself ends a style. -/
def paint (color : Bool) (style : List Char) (s : List Char) : List Char :=
  if color then style ++ Text.joinWith (plain ++ style) (Text.splitWord plain s) ++ plain else s

def fieldLine (color : Bool) (field : String × String) : List Char :=
  [' ', ' '] ++ paint color dimmed field.1.toList ++ [':', ' '] ++ field.2.toList ++ ['\n']

def recordLines (color : Bool) (r : Record) : List Char :=
  if r.isEmpty then [' ', ' '] ++ paint color dimmed "(no fields)".toList ++ ['\n']
  else r.entries.flatMap (fieldLine color)

def entryLines (color : Bool) (entry : String × Record) : List Char :=
  paint color boldCyan entry.1.toList ++ ['\n'] ++ recordLines color entry.2

def countLine (n : Nat) : List Char :=
  Nat.toDigits 10 n ++ (if n = 1 then " record\n" else " records\n").toList

def datasetLines (color : Bool) (d : Dataset) : List Char :=
  d.entries.flatMap (entryLines color) ++ countLine d.size

def ofDataset (format : Format) (color : Bool) (d : Dataset) : String :=
  match format with
  | .text => String.ofList (datasetLines color d)
  | .json => String.ofList (d.toJson.prettyChars 0 ++ ['\n'])

def conditionLines : Nat → List Condition → List Char
  | _, [] => []
  | n, c :: cs =>
    [' ', ' '] ++ Nat.toDigits 10 n ++ ['.', ' '] ++ c.chars ++ ['\n'] ++ conditionLines (n + 1) cs

def label (color : Bool) (name : String) : List Char :=
  paint color bold (name ++ ":").toList

def selectionText : Selection → List Char
  | .all => "all".toList
  | .names ns => listing ns

def queryLines (color : Bool) (q : Query) : List Char :=
  label color "Query" ++ [' '] ++ q.chars ++ ['\n'] ++
    label color "Fields" ++ [' '] ++ selectionText q.selection ++ ['\n'] ++
    label color "Conditions" ++
    (if q.conditions.isEmpty then " none\n".toList else '\n' :: conditionLines 1 q.conditions)

def ofQuery (format : Format) (color : Bool) (q : Query) : String :=
  match format with
  | .text => String.ofList (queryLines color q)
  | .json => String.ofList (q.toJson.prettyChars 0 ++ ['\n'])

/-- Writes to a place that takes `limit` bytes and then fails, leaving those bytes written. A run writes to its
output without a limit; the limit serves to try out what a failed write leaves. -/
def writeWithin (limit : Nat) (report : String) : Except ByteArray String :=
  if report.toUTF8.size ≤ limit then .ok report else .error (report.toUTF8.extract 0 limit)

end Report

end AddressLookup
