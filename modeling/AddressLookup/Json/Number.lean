import AddressLookup.Decimal.Shortest
import AddressLookup.Json.Basic

/-!
Numbers in JSON texts. Integers are written plainly. Other numbers are written with the fewest digits
that read back, positionally from `1e-5` up to `1e16` and with an exponent elsewhere. Reading keeps as
many digits as fit 64 bits and scales them by powers of ten.
-/

namespace AddressLookup.JsonNumber

def positionalLimit : Int := 16

def positionalFloor : Int := -5

def zeros (n : Nat) : List Char :=
  List.replicate n '0'

def decimalChars (s : Decimal.Scientific) : List Char :=
  let digits := Nat.toDigits 10 s.digits
  let leading := s.exponent + digits.length - 1
  if positionalFloor ≤ leading && leading < positionalLimit then
    if 0 ≤ s.exponent then digits ++ zeros s.exponent.toNat ++ ['.', '0']
    else if 0 ≤ leading then
      digits.take (leading + 1).toNat ++ '.' :: digits.drop (leading + 1).toNat
    else '0' :: '.' :: zeros (-leading - 1).toNat ++ digits
  else
    let sign := if leading < 0 then '-' else '+'
    let fraction := digits.drop 1
    digits.take 1 ++ (if fraction.isEmpty then [] else '.' :: fraction) ++
      'e' :: sign :: Nat.toDigits 10 leading.natAbs

def floatChars (bits : UInt64) : List Char :=
  let magnitude := Decimal.Binary.ofBits bits
  let text :=
    if magnitude.significand = 0 then ['0', '.', '0'] else decimalChars (Decimal.shortest magnitude)
  if bits.toNat / 0x8000000000000000 = 1 then '-' :: text else text

def integerChars (n : Int) : List Char :=
  if n < 0 then '-' :: Nat.toDigits 10 n.natAbs else Nat.toDigits 10 n.natAbs

def chars : JsonNumber → List Char
  | integer n => integerChars n
  | float bits => floatChars bits

def text (n : JsonNumber) : String :=
  String.ofList n.chars

def significandLimit : Nat := 0xFFFFFFFFFFFFFFFF

def digitValue (c : Char) : Nat :=
  c.toNat - '0'.toNat

def takeDigits (significand : Nat) : List Char → Nat × List Char
  | [] => (significand, [])
  | c :: rest =>
    if c.isDigit && 10 * significand + digitValue c ≤ significandLimit then
      takeDigits (10 * significand + digitValue c) rest
    else (significand, c :: rest)

def powerOfTen (n : Nat) : Float :=
  Float.ofScientific 1 false n

/-- Divides by ten to the given power, at most `10 ^ 308` at a time. -/
def scaleDown (x : Float) (exponent : Nat) : Float :=
  if exponent ≤ 308 then x / powerOfTen exponent
  else if x == 0 then x
  else scaleDown (x / powerOfTen 308) (exponent - 308)
termination_by exponent

def scale (negative : Bool) (significand : Nat) (exponent : Int) : Option JsonNumber :=
  let x := significand.toUInt64.toFloat
  let signed (y : Float) : JsonNumber := float (if negative then (-y).toBits else y.toBits)
  if exponent < 0 then some (signed (scaleDown x exponent.natAbs))
  else if exponent ≤ 308 then
    let y := x * powerOfTen exponent.natAbs
    if y.isInf then none else some (signed y)
  else if significand = 0 then some (signed x)
  else none

def exponentLimit : Nat := 0x7FFFFFFF

def readExponent (negative : Bool) (significand : Nat) (exponent : Int) (s : List Char) :
    Option (JsonNumber × List Char) :=
  let (down, s) :=
    match s with
    | '+' :: rest => (false, rest)
    | '-' :: rest => (true, rest)
    | _ => (false, s)
  let digits := s.takeWhile Char.isDigit
  let rest := s.dropWhile Char.isDigit
  let shift := digits.foldl (fun n c => 10 * n + digitValue c) 0
  if digits.isEmpty then none
  else if exponentLimit < shift then
    if significand ≠ 0 && !down then none
    else some (float (if negative then (-(0 : Float)).toBits else (0 : Float).toBits), rest)
  else
    (scale negative significand (if down then exponent - shift else exponent + shift)).map (·, rest)

def readScale (negative : Bool) (significand : Nat) (exponent : Int) (s : List Char) :
    Option (JsonNumber × List Char) :=
  match s with
  | 'e' :: rest => readExponent negative significand exponent rest
  | 'E' :: rest => readExponent negative significand exponent rest
  | _ => (scale negative significand exponent).map (·, s)

def readFraction (negative : Bool) (significand : Nat) (exponent : Int) (s : List Char) :
    Option (JsonNumber × List Char) :=
  let (kept, rest) := takeDigits significand s
  let taken : Nat := s.length - rest.length
  match s with
  | c :: _ =>
    if c.isDigit then readScale negative kept (exponent - taken) (rest.dropWhile Char.isDigit)
    else none
  | [] => none

/-- The integer `± significand`, or the nearest double where the range of integers ends. -/
def whole (negative : Bool) (significand : Nat) : JsonNumber :=
  if !negative then integer significand
  else if significand = 0 || 0x8000000000000000 < significand then
    float (-significand.toUInt64.toFloat).toBits
  else integer (-significand)

/-- Reads what follows the integer digits, of which `dropped` were not kept. -/
def readAfterWhole (negative : Bool) (significand dropped : Nat) (s : List Char) :
    Option (JsonNumber × List Char) :=
  match s with
  | '.' :: rest => readFraction negative significand dropped rest
  | 'e' :: rest => readExponent negative significand dropped rest
  | 'E' :: rest => readExponent negative significand dropped rest
  | _ =>
    if dropped = 0 then some (whole negative significand, s)
    else (scale negative significand dropped).map (·, s)

def readMagnitude (negative : Bool) (s : List Char) : Option (JsonNumber × List Char) :=
  match s with
  | [] => none
  | c :: rest =>
    if c = '0' then
      if (rest.head?.map Char.isDigit).getD false then none else readAfterWhole negative 0 0 rest
    else if c.isDigit then
      let (significand, rest) := takeDigits 0 s
      let dropped := rest.takeWhile Char.isDigit
      readAfterWhole negative significand dropped.length (rest.dropWhile Char.isDigit)
    else none

def read (s : List Char) : Option (JsonNumber × List Char) :=
  match s with
  | '-' :: rest => readMagnitude true rest
  | _ => readMagnitude false s

end AddressLookup.JsonNumber
