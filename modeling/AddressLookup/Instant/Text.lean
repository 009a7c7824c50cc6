import AddressLookup.Instant.Basic
import AddressLookup.Text.Blank

/-!
The text of an instant, `YYYY-MM-DDThh:mm:ss` with a fraction of three, six or nine digits if it has one,
and `Z`. Reading also takes other offsets, missing leading zeros and white space between the parts.
-/

namespace AddressLookup.Instant

def padded (width : Nat) (n : Nat) : List Char :=
  let digits := Nat.toDigits 10 n
  List.replicate (width - digits.length) '0' ++ digits

def yearChars (year : Int) : List Char :=
  if 0 ≤ year && year ≤ 9999 then padded 4 year.toNat
  else (if year < 0 then '-' else '+') :: padded 4 year.natAbs

def fractionChars (nanos : Nat) : List Char :=
  if nanos = 0 then []
  else if nanos % 1000000 = 0 then '.' :: padded 3 (nanos / 1000000)
  else if nanos % 1000 = 0 then '.' :: padded 6 (nanos / 1000)
  else '.' :: padded 9 nanos

def chars (t : Instant) : List Char :=
  let date := Date.ofDayNumber (t.seconds / secondsPerDay)
  let second := (t.seconds % secondsPerDay).toNat
  yearChars date.year ++ '-' :: padded 2 date.month ++ '-' :: padded 2 date.day ++
    'T' :: padded 2 (second / 3600) ++ ':' :: padded 2 (second / 60 % 60) ++
    ':' :: padded 2 (second % 60 + t.nanos / nanosPerSecond) ++
    fractionChars (t.nanos % nanosPerSecond) ++ ['Z']

def text (t : Instant) : String :=
  String.ofList t.chars

abbrev Part (α : Type) := List Char → Option (α × List Char)

def valueOfDigits (digits : List Char) : Nat :=
  digits.foldl (fun n c => 10 * n + (c.toNat - '0'.toNat)) 0

def readNumber (limit : Nat) : Part Nat := fun s =>
  let s := Text.trimStart s
  let digits := (s.take limit).takeWhile Char.isDigit
  if digits.isEmpty then none else some (valueOfDigits digits, s.drop digits.length)

/-- Reads a year: four digits at most, or any number of them after a sign. -/
def readYear : Part Int := fun s =>
  match Text.trimStart s with
  | '-' :: rest => readSigned (-1) rest
  | '+' :: rest => readSigned 1 rest
  | s => (readNumber 4 s).map fun (n, rest) => ((n : Int), rest)
where
  readSigned (sign : Int) : Part Int := fun s =>
    let digits := s.takeWhile Char.isDigit
    if digits.isEmpty then none else some (sign * valueOfDigits digits, s.dropWhile Char.isDigit)

def readAfter (separator : Char) : Part Nat := fun s =>
  match Text.trimStart s with
  | c :: rest => if c = separator then readNumber 2 rest else none
  | [] => none

def readDate : Part Date := fun s => do
  let (year, s) ← readYear s
  let (month, s) ← readAfter '-' s
  let (day, s) ← readAfter '-' s
  let date : Date := ⟨year, month, day⟩
  if date.isValid then some (date, s) else none

/-- Reads a fraction of a second in nanoseconds; digits beyond the ninth are dropped. -/
def readFraction : Part Nat := fun s =>
  match s with
  | '.' :: rest =>
    let digits := (rest.take 9).takeWhile Char.isDigit
    if digits.isEmpty then none
    else some (valueOfDigits digits * Nat.pow 10 (9 - digits.length), rest.dropWhile Char.isDigit)
  | _ => some (0, s)

/-- Reads a time of day in seconds and nanoseconds; second 60 is the leap second after second 59. -/
def readTime : Part (Nat × Nat) := fun s => do
  let (hour, s) ← readNumber 2 s
  let (minute, s) ← readAfter ':' s
  let (second, s) ← readAfter ':' s
  let (nanos, s) ← readFraction s
  if hour < 24 && minute < 60 && second ≤ 60 then
    let clock := hour * 3600 + minute * 60
    if second = 60 then some ((clock + 59, nanosPerSecond + nanos), s)
    else some ((clock + second, nanos), s)
  else none

def isOffsetGap (c : Char) : Bool :=
  c = ':' || Text.isBlank c

def readPair : Part Nat := fun s =>
  match s with
  | a :: b :: rest => if a.isDigit && b.isDigit then some (valueOfDigits [a, b], rest) else none
  | _ => none

def readOffsetSize (sign : Int) : Part Int := fun s => do
  let (hours, s) ← readPair s
  let (minutes, s) ← readPair (s.dropWhile isOffsetGap)
  if hours < 24 && minutes < 60 then some (sign * (hours * 3600 + minutes * 60), s) else none

def readOffset : Part Int := fun s =>
  match Text.trimStart s with
  | a :: b :: c :: rest =>
    if a.toLower = 'u' && b.toLower = 't' && c.toLower = 'c' then some (0, rest)
    else if a.toLower = 'z' then some (0, b :: c :: rest)
    else if a = '+' then readOffsetSize 1 (b :: c :: rest)
    else if a = '-' || a = '−' then readOffsetSize (-1) (b :: c :: rest)
    else none
  | a :: rest => if a.toLower = 'z' then some (0, rest) else none
  | [] => none

def readSeparator : Part Unit := fun s =>
  match s with
  | c :: rest => if c = 'T' || c = 't' || c = ' ' then some ((), rest) else none
  | [] => none

def parseChars (s : List Char) : Option Instant := do
  let (date, s) ← readDate s
  let (_, s) ← readSeparator s
  let ((second, nanos), s) ← readTime s
  let (offset, s) ← readOffset s
  if (Text.trimStart s).isEmpty then
    ofParts? (date.dayNumber * secondsPerDay + second - offset) nanos
  else none

def parse (text : String) : Option Instant :=
  parseChars text.toList

end AddressLookup.Instant
