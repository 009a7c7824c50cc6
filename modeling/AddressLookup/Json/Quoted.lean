/-!
Strings in JSON texts. A quote, a backslash and the control characters are escaped; everything else is
written as it is. Reading takes every escape of the format and refuses half of a surrogate pair.
-/

namespace AddressLookup.Json.Quoted

def hexDigit (n : Nat) : Char :=
  Nat.digitChar n

def escape (c : Char) : List Char :=
  if c = '"' then ['\\', '"']
  else if c = '\\' then ['\\', '\\']
  else if c = '\x08' then ['\\', 'b']
  else if c = '\x0c' then ['\\', 'f']
  else if c = '\n' then ['\\', 'n']
  else if c = '\r' then ['\\', 'r']
  else if c = '\t' then ['\\', 't']
  else if c.toNat < 0x20 then ['\\', 'u', '0', '0', hexDigit (c.toNat / 16), hexDigit (c.toNat % 16)]
  else [c]

def escapeAll (s : List Char) : List Char :=
  s.flatMap escape

def write (s : String) : List Char :=
  '"' :: escapeAll s.toList ++ ['"']

def hexValue? (c : Char) : Option Nat :=
  if c.isDigit then some (c.toNat - '0'.toNat)
  else if 'a' ≤ c ∧ c ≤ 'f' then some (c.toNat - 'a'.toNat + 10)
  else if 'A' ≤ c ∧ c ≤ 'F' then some (c.toNat - 'A'.toNat + 10)
  else none

def unit? (a b c d : Char) : Option Nat := do
  let a ← hexValue? a
  let b ← hexValue? b
  let c ← hexValue? c
  let d ← hexValue? d
  return ((a * 16 + b) * 16 + c) * 16 + d

def unescape? (c : Char) : Option Char :=
  if c = '"' || c = '\\' || c = '/' then some c
  else if c = 'b' then some '\x08'
  else if c = 'f' then some '\x0c'
  else if c = 'n' then some '\n'
  else if c = 'r' then some '\r'
  else if c = 't' then some '\t'
  else none

def isHighHalf (n : Nat) : Bool :=
  0xD800 ≤ n && n < 0xDC00

def isLowHalf (n : Nat) : Bool :=
  0xDC00 ≤ n && n < 0xE000

def push (c : Char) (r : Option (List Char × List Char)) : Option (List Char × List Char) :=
  r.map fun (s, rest) => (c :: s, rest)

def readChars : List Char → Option (List Char × List Char)
  | [] => none
  | c :: rest =>
    if c = '"' then some ([], rest)
    else if c = '\\' then
      match rest with
      | 'u' :: a :: b :: c :: d :: more =>
        match unit? a b c d with
        | none => none
        | some n =>
          if isLowHalf n then none
          else if isHighHalf n then
            match more with
            | '\\' :: 'u' :: e :: f :: g :: h :: more =>
              match unit? e f g h with
              | none => none
              | some m =>
                if isLowHalf m then
                  push (Char.ofNat (0x10000 + (n - 0xD800) * 0x400 + (m - 0xDC00))) (readChars more)
                else none
            | _ => none
          else push (Char.ofNat n) (readChars more)
      | e :: more =>
        match unescape? e with
        | none => none
        | some c => push c (readChars more)
      | [] => none
    else if c.toNat < 0x20 then none
    else push c (readChars rest)

def read (s : List Char) : Option (String × List Char) :=
  (readChars s).map fun (cs, rest) => (String.ofList cs, rest)

end AddressLookup.Json.Quoted
