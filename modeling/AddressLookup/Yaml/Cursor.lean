/-!
Positions in a YAML text: what is left of the text, and the line and column that it starts at. Columns
are counted in characters, but the length of a text in bytes. Five kinds of line breaks are known; a
carriage return and a line feed together are one.
-/

namespace AddressLookup.Yaml

def isAllowed (c : Char) : Bool :=
  let n := c.toNat
  n == 0x09 || n == 0x0A || n == 0x0D || (0x20 ≤ n && n ≤ 0x7E) || n == 0x85 ||
    (0xA0 ≤ n && n ≤ 0xFFFD) || 0x10000 ≤ n

def isGap (c : Char) : Bool :=
  c = ' ' || c = '\t'

def isBreak (c : Char) : Bool :=
  c = '\n' || c = '\r' || c = '\u0085' || c = '\u2028' || c = '\u2029'

def isWordChar (c : Char) : Bool :=
  c.isAlphanum || c = '_' || c = '-'

structure Cursor where
  rest : List Char
  index : Nat
  line : Nat
  column : Nat

namespace Cursor

def byteCount (s : List Char) : Nat :=
  s.foldl (fun n c => n + c.utf8Size) 0

def ofString (s : String) : Cursor :=
  ⟨s.toList, 0, 0, 0⟩

def head? (c : Cursor) : Option Char :=
  c.rest.head?

def next? (c : Cursor) : Option Char :=
  c.rest[1]?

def isAt (c : Cursor) (x : Char) : Bool :=
  c.head? == some x

def advance (c : Cursor) (n : Nat) : Cursor :=
  ⟨c.rest.drop n, c.index + byteCount (c.rest.take n), c.line, c.column + n⟩

def skipWhile (c : Cursor) (p : Char → Bool) : Cursor :=
  c.advance (c.rest.takeWhile p).length

def takeBreak (c : Cursor) : List Char × Cursor :=
  match c.rest with
  | '\r' :: '\n' :: rest => (['\n'], ⟨rest, c.index + 2, c.line + 1, 0⟩)
  | x :: rest =>
    if x = '\u2028' || x = '\u2029' then ([x], ⟨rest, c.index + x.utf8Size, c.line + 1, 0⟩)
    else if isBreak x then (['\n'], ⟨rest, c.index + x.utf8Size, c.line + 1, 0⟩)
    else ([], c)
  | [] => ([], c)

end Cursor

def isBreakOrEnd : Option Char → Bool
  | none => true
  | some c => isBreak c

def isGapOrEnd : Option Char → Bool
  | none => true
  | some c => isGap c || isBreak c

namespace Cursor

def isAtMarker (c : Cursor) (mark : Char) : Bool :=
  c.column = 0 && c.rest.take 3 = [mark, mark, mark] && isGapOrEnd c.rest[3]?

def isAtDocumentMarker (c : Cursor) : Bool :=
  c.isAtMarker '-' || c.isAtMarker '.'

end Cursor

end AddressLookup.Yaml
