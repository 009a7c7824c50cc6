import AddressLookup.Text.Split

/-!
IPv4 addresses in dotted form, and the search for them in a text. Candidates are four groups of one to
three digits, taken from the left, each as long as it can be, and none overlapping another; those
with a group above 255 are passed over.
-/

namespace AddressLookup.Address

def decimalValue (digits : List Char) : Nat :=
  digits.foldl (fun n c => 10 * n + (c.toNat - '0'.toNat)) 0

def isOctet (s : List Char) : Bool :=
  1 ≤ s.length && s.length ≤ 3 && s.all Char.isDigit && decimalValue s ≤ 255

def isValidChars (s : List Char) : Bool :=
  match Text.splitOn '.' s with
  | [a, b, c, d] => isOctet a && isOctet b && isOctet c && isOctet d
  | _ => false

def isValid (candidate : String) : Bool :=
  isValidChars candidate.toList

def leadingDigits (limit : Nat) (s : List Char) : List Char :=
  (s.take limit).takeWhile Char.isDigit

/-- The length of the longest run of `groups` dotted digit groups that starts a text. -/
def groupsLength? : Nat → List Char → Option Nat
  | 0, _ => none
  | groups + 1, s =>
    let digits := leadingDigits 3 s
    if digits.isEmpty then none
    else if groups = 0 then some digits.length
    else
      match s.drop digits.length with
      | '.' :: rest => (groupsLength? groups rest).map (digits.length + 1 + ·)
      | _ => none

/-- The candidates of a text of which `skip` characters belong to the candidate before. -/
def candidatesAfter : Nat → List Char → List (List Char)
  | _, [] => []
  | skip + 1, _ :: rest => candidatesAfter skip rest
  | 0, c :: rest =>
    match groupsLength? 4 (c :: rest) with
    | some n => (c :: rest).take n :: candidatesAfter (n - 1) rest
    | none => candidatesAfter 0 rest

def candidates (s : List Char) : List (List Char) :=
  candidatesAfter 0 s

def extractChars (s : List Char) : List (List Char) :=
  (candidates s).filter isValidChars

def extract (text : String) : List String :=
  (extractChars text.toList).map String.ofList

end AddressLookup.Address
