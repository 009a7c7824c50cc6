/-!
Bytes read as text even if they are no UTF-8. Bytes that could begin a character, but are not followed by the
rest of it, are read as one replacement character, and so is every other byte that belongs to no character.
-/

namespace AddressLookup.Text

def replacement : Char := '\uFFFD'

/-- The ranges in which the bytes after the first byte of a character lie; there are none if it is a character by
itself, or if no character begins with it. -/
def followers (b : UInt8) : List (UInt8 × UInt8) :=
  let any := (0x80, 0xBF)
  if 0xC2 ≤ b && b ≤ 0xDF then [any]
  else if b = 0xE0 then [(0xA0, 0xBF), any]
  else if b = 0xED then [(0x80, 0x9F), any]
  else if 0xE1 ≤ b && b ≤ 0xEF then [any, any]
  else if b = 0xF0 then [(0x90, 0xBF), any, any]
  else if 0xF1 ≤ b && b ≤ 0xF3 then [any, any, any]
  else if b = 0xF4 then [(0x80, 0x8F), any, any]
  else []

def following : List (UInt8 × UInt8) → List UInt8 → Nat
  | range :: ranges, b :: bytes => if range.1 ≤ b && b ≤ range.2 then following ranges bytes + 1 else 0
  | _, _ => 0

def firstChar? (bytes : List UInt8) : Option Char :=
  (bytes.take 4).toByteArray.utf8DecodeChar? 0

/-- The character that a byte and those after it are read as, and how many of those after it are part of it. -/
def readChar (b : UInt8) (bytes : List UInt8) : Char × Nat :=
  match firstChar? (b :: bytes) with
  | some c => (c, c.utf8Size - 1)
  | none => (replacement, following (followers b) bytes)

/-- Reads bytes of which the first few are part of a character that has been read. -/
def lossyFrom : Nat → List UInt8 → List Char
  | _, [] => []
  | n + 1, _ :: bytes => lossyFrom n bytes
  | 0, b :: bytes => (readChar b bytes).1 :: lossyFrom (readChar b bytes).2 bytes

def lossy (bytes : List UInt8) : List Char :=
  lossyFrom 0 bytes

end AddressLookup.Text
