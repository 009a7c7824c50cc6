import AddressLookup.Yaml.Scalar

/-!
The tokens of a YAML text. Indentation is made explicit: every block collection has a token where it
starts and one where it ends. A key is recognised by the colon behind it, so the tokens that make it
a key are put in where it started.
-/

namespace AddressLookup.Yaml

/-- The name of a tag: bytes, as percent escapes may spell some that are no text. -/
abbrev TagName := List UInt8

def TagName.ofString (s : String) : TagName :=
  s.toUTF8.data.toList

inductive Token where
  | version (major minor : Nat)
  | tagShorthand (handle : String) (stem : TagName)
  | documentStart
  | documentEnd
  | blockSequence
  | blockMapping
  | blockEnd
  | flowSequence
  | flowSequenceEnd
  | flowMapping
  | flowMappingEnd
  | entry
  | comma
  | key
  | value
  | reference (name : String)
  | anchor (name : String)
  | tag (handle : String) (suffix : TagName)
  | scalar (text : String) (style : ScalarStyle)
  deriving DecidableEq, Repr

/-- A place where a key may have started; in a block the line that starts a key needs its colon. -/
structure KeyStart where
  position : Nat
  required : Bool
  index : Nat
  line : Nat
  column : Nat

structure Lexer where
  cursor : Cursor
  /-- The tokens so far, the last one first. -/
  tokens : List Token
  indent : Int
  outerIndents : List Int
  keyAllowed : Bool
  /-- The possible key of each open flow collection, the innermost first, and that of the block. -/
  keyStarts : List (Option KeyStart)

namespace Lexer

def ofString (s : String) : Lexer :=
  ⟨.ofString s, [], -1, [], true, [none]⟩

def inFlow (l : Lexer) : Bool :=
  1 < l.keyStarts.length

def emit (l : Lexer) (t : Token) : Lexer :=
  { l with tokens := t :: l.tokens }

def moveTo (l : Lexer) (c : Cursor) : Lexer :=
  { l with cursor := c }

def advance (l : Lexer) (n : Nat) : Lexer :=
  l.moveTo (l.cursor.advance n)

def insertAt (l : Lexer) (position : Nat) (t : Token) : Lexer :=
  let later := l.tokens.take (l.tokens.length - position)
  { l with tokens := later ++ t :: l.tokens.drop (l.tokens.length - position) }

def allowKey (l : Lexer) (allowed : Bool) : Lexer :=
  { l with keyAllowed := allowed }

def setKeyStart (l : Lexer) (start : Option KeyStart) : Lexer :=
  { l with keyStarts := start :: l.keyStarts.tail }

def dropKeyStart (l : Lexer) : Option Lexer :=
  match l.keyStarts.head? with
  | some (some start) => if start.required then none else some (l.setKeyStart none)
  | _ => some l

def saveKeyStart (l : Lexer) : Option Lexer :=
  if l.keyAllowed then
    let required := !l.inFlow && l.indent = l.cursor.column
    let start : KeyStart :=
      ⟨l.tokens.length, required, l.cursor.index, l.cursor.line, l.cursor.column⟩
    l.dropKeyStart.map (·.setKeyStart (some start))
  else some l

def keyLength : Nat := 1024

def KeyStart.isStale (start : KeyStart) (c : Cursor) : Bool :=
  start.line < c.line || start.index + keyLength < c.index

def dropStale (l : Lexer) : Option Lexer :=
  let stale (start : Option KeyStart) : Bool := start.any (KeyStart.isStale · l.cursor)
  if l.keyStarts.any fun start => stale start && start.any (·.required) then none
  else some { l with keyStarts := l.keyStarts.map fun start => if stale start then none else start }

def closeBlocks (column : Int) : List Int → Lexer → Lexer
  | [], l => l
  | outer :: outers, l =>
    if column < l.indent then
      closeBlocks column outers { l.emit .blockEnd with indent := outer, outerIndents := outers }
    else l

def unindent (l : Lexer) (column : Int) : Lexer :=
  if l.inFlow then l else closeBlocks column l.outerIndents l

def openBlock (l : Lexer) (column : Int) (position : Nat) (t : Token) : Lexer :=
  if !l.inFlow && l.indent < column then
    { l.insertAt position t with indent := column, outerIndents := l.indent :: l.outerIndents }
  else l

/-- Passes over the mark of the byte order, which may stand at the start of a line and takes a column. -/
def skipByteOrderMark (c : Cursor) : Cursor :=
  if c.column = 0 && c.isAt '\uFEFF' then c.advance 1 else c

def skipToToken : Nat → Lexer → Lexer
  | 0, l => l
  | fuel + 1, l =>
    let tabs := l.inFlow || !l.keyAllowed
    let c := (skipByteOrderMark l.cursor).skipWhile fun x => x = ' ' || tabs && x = '\t'
    let c := if c.isAt '#' then c.skipWhile (fun x => !isBreak x) else c
    if c.head?.any isBreak then
      skipToToken fuel ((l.moveTo c.takeBreak.2).allowKey (l.keyAllowed || !l.inFlow))
    else l.moveTo c

def isUriChar (verbatim : Bool) (c : Char) : Bool :=
  isWordChar c || ";/?:@&=+$.!~*'()%".toList.contains c || verbatim && (c = ',' || c = '[' || c = ']')

def octetCount? (b : Nat) : Option Nat :=
  if b < 0x80 then some 1
  else if 0xC0 ≤ b && b < 0xE0 then some 2
  else if 0xE0 ≤ b && b < 0xF0 then some 3
  else if 0xF0 ≤ b && b < 0xF8 then some 4
  else none

def decodeUri : Nat → List Char → Option (List UInt8)
  | 0, [] => some []
  | _ + 1, [] => none
  | left, '%' :: a :: b :: rest =>
    match hexValue? a, hexValue? b with
    | some x, some y =>
      let octet := 16 * x + y
      let more : Option Nat :=
        match left with
        | 0 => (octetCount? octet).map (· - 1)
        | n + 1 => if 0x80 ≤ octet && octet < 0xC0 then some n else none
      more.bind fun left => (decodeUri left rest).map (UInt8.ofNat octet :: ·)
    | _, _ => none
  | 0, c :: rest => if c = '%' then none else (decodeUri 0 rest).map (c.toUInt8 :: ·)
  | _ + 1, _ :: _ => none

/-- Reads the characters of a tag; at least one, unless `stem` has some already. A zero byte ends the name. -/
def readUri (verbatim : Bool) (stem : List Char) (c : Cursor) : Option (TagName × Cursor) :=
  let raw := c.rest.takeWhile (isUriChar verbatim)
  if stem.isEmpty && raw.isEmpty then none
  else (decodeUri 0 raw).map fun bytes =>
    (((stem.drop 1).map Char.toUInt8 ++ bytes).takeWhile (· ≠ 0), c.advance raw.length)

def readHandle (c : Cursor) : Option (List Char × Cursor) :=
  if c.isAt '!' then
    let word := '!' :: (c.rest.drop 1).takeWhile isWordChar
    let after := c.advance word.length
    if after.isAt '!' then some (word ++ ['!'], after.advance 1) else some (word, after)
  else none

def isFullHandle (handle : List Char) : Bool :=
  1 < handle.length && handle.getLast? = some '!'

def readTag (inFlow : Bool) (c : Cursor) : Option (Token × Cursor) := do
  let (handle, suffix, c) ←
    if c.next? = some '<' then do
      let (suffix, c) ← readUri true [] (c.advance 2)
      if c.isAt '>' then some ("", suffix, c.advance 1) else none
    else do
      let (handle, c) ← readHandle c
      if isFullHandle handle then do
        let (suffix, c) ← readUri false [] c
        some (String.ofList handle, suffix, c)
      else do
        let (suffix, c) ← readUri false handle c
        if suffix.isEmpty then some ("", .ofString "!", c) else some ("!", suffix, c)
  if isGapOrEnd c.head? || inFlow && c.isAt ',' then some (.tag handle suffix, c) else none

def readAnchor (c : Cursor) : Option (String × Cursor) :=
  let name := (c.rest.drop 1).takeWhile isWordChar
  let after := c.advance (name.length + 1)
  let ended := isGapOrEnd after.head? || after.head?.any fun x => "?:,]\x7d%@`".toList.contains x
  if name.isEmpty || !ended then none else some (String.ofList name, after)

def valueOfDigits (digits : List Char) : Nat :=
  digits.foldl (fun n c => 10 * n + (c.toNat - '0'.toNat)) 0

def readVersionNumber (c : Cursor) : Option (Nat × Cursor) :=
  let digits := c.rest.takeWhile Char.isDigit
  if digits.isEmpty || 9 < digits.length then none
  else some (valueOfDigits digits, c.advance digits.length)

def readVersion (c : Cursor) : Option (Token × Cursor) := do
  let (major, c) ← readVersionNumber (c.skipWhile isGap)
  if c.isAt '.' then
    let (minor, c) ← readVersionNumber (c.advance 1)
    some (.version major minor, c)
  else none

def readShorthand (c : Cursor) : Option (Token × Cursor) := do
  let (handle, c) ← readHandle (c.skipWhile isGap)
  if (handle = ['!'] || isFullHandle handle) && c.head?.any isGap then
    let (stem, c) ← readUri true [] (c.skipWhile isGap)
    if isGapOrEnd c.head? then some (.tagShorthand (String.ofList handle) stem, c) else none
  else none

def readDirective (c : Cursor) : Option (Token × Cursor) := do
  let name := (c.rest.drop 1).takeWhile isWordChar
  let after := c.advance (name.length + 1)
  if isGapOrEnd after.head? then
    let (t, c) ←
      if name = ['Y', 'A', 'M', 'L'] then readVersion after
      else if name = ['T', 'A', 'G'] then readShorthand after
      else none
    let c := c.skipWhile isGap
    let c := if c.isAt '#' then c.skipWhile (fun x => !isBreak x) else c
    if isBreakOrEnd c.head? then some (t, c.takeBreak.2) else none
  else none

def fetchDirective (l : Lexer) : Option Lexer := do
  let l ← (l.unindent (-1)).dropKeyStart
  let (t, c) ← readDirective l.cursor
  some (((l.allowKey false).moveTo c).emit t)

def fetchDocumentMark (l : Lexer) (t : Token) : Option Lexer := do
  let l ← (l.unindent (-1)).dropKeyStart
  some (((l.allowKey false).advance 3).emit t)

def fetchFlowStart (l : Lexer) (t : Token) : Option Lexer := do
  let l ← l.saveKeyStart
  some ((({ l with keyStarts := none :: l.keyStarts }.allowKey true).advance 1).emit t)

def fetchFlowEnd (l : Lexer) (t : Token) : Option Lexer := do
  let l ← l.dropKeyStart
  let l := if l.inFlow then { l with keyStarts := l.keyStarts.tail } else l
  some (((l.allowKey false).advance 1).emit t)

def fetchComma (l : Lexer) : Option Lexer := do
  let l ← l.dropKeyStart
  some (((l.allowKey true).advance 1).emit .comma)

def openBlockHere (l : Lexer) (t : Token) : Option Lexer :=
  if l.inFlow then some l
  else if l.keyAllowed then some (l.openBlock l.cursor.column l.tokens.length t)
  else none

def fetchEntry (l : Lexer) : Option Lexer := do
  let l ← (← l.openBlockHere .blockSequence).dropKeyStart
  some (((l.allowKey true).advance 1).emit .entry)

def fetchKey (l : Lexer) : Option Lexer := do
  let l ← (← l.openBlockHere .blockMapping).dropKeyStart
  some (((l.allowKey (!l.inFlow)).advance 1).emit .key)

def fetchValue (l : Lexer) : Option Lexer :=
  match l.keyStarts.head? with
  | some (some start) =>
    let l := (l.insertAt start.position .key).openBlock start.column start.position .blockMapping
    some ((((l.setKeyStart none).allowKey false).advance 1).emit .value)
  | _ => do
    let l ← l.openBlockHere .blockMapping
    some (((l.allowKey (!l.inFlow)).advance 1).emit .value)

def fetchAnchor (l : Lexer) (t : String → Token) : Option Lexer := do
  let l ← l.saveKeyStart
  let (name, c) ← readAnchor l.cursor
  some (((l.allowKey false).moveTo c).emit (t name))

def fetchTag (l : Lexer) : Option Lexer := do
  let l ← l.saveKeyStart
  let (t, c) ← readTag l.inFlow l.cursor
  some (((l.allowKey false).moveTo c).emit t)

def emitScalar (l : Lexer) (style : ScalarStyle) (s : Scalar) : Lexer :=
  ((l.moveTo s.cursor).allowKey s.endsLine).emit (.scalar (String.ofList s.text) style)

def fetchBlock (l : Lexer) (fold : Bool) : Option Lexer := do
  let l ← l.dropKeyStart
  let s ← readBlock fold l.indent l.cursor
  some (l.emitScalar (if fold then .folded else .literal) s)

def fetchQuoted (l : Lexer) (single : Bool) : Option Lexer := do
  let l ← l.saveKeyStart
  let s ← readQuoted single l.cursor
  some (l.emitScalar (if single then .singleQuoted else .doubleQuoted) s)

def fetchPlain (l : Lexer) : Option Lexer := do
  let l ← l.saveKeyStart
  let s ← readPlain l.inFlow (l.indent + 1) l.cursor
  some (l.emitScalar .plain s)

def isIndicator (c : Char) : Bool :=
  "-?:,[]\x7b\x7d#&*!|>'\"%@`".toList.contains c

def startsPlain (inFlow : Bool) (c : Char) (next : Option Char) : Bool :=
  !isIndicator c && !isGap c || c = '-' && !next.any isGap ||
    !inFlow && (c = '?' || c = ':') && !isGapOrEnd next

def fetch (l : Lexer) (c : Char) : Option Lexer :=
  let next := l.cursor.next?
  let marks := l.inFlow || isGapOrEnd next
  if l.cursor.column = 0 && c = '%' then l.fetchDirective
  else if l.cursor.isAtMarker '-' then l.fetchDocumentMark .documentStart
  else if l.cursor.isAtMarker '.' then l.fetchDocumentMark .documentEnd
  else if c = '[' then l.fetchFlowStart .flowSequence
  else if c = '\x7b' then l.fetchFlowStart .flowMapping
  else if c = ']' then l.fetchFlowEnd .flowSequenceEnd
  else if c = '\x7d' then l.fetchFlowEnd .flowMappingEnd
  else if c = ',' then l.fetchComma
  else if c = '-' && isGapOrEnd next then l.fetchEntry
  else if c = '?' && marks then l.fetchKey
  else if c = ':' && marks then l.fetchValue
  else if c = '*' then l.fetchAnchor .reference
  else if c = '&' then l.fetchAnchor .anchor
  else if c = '!' then l.fetchTag
  else if c = '|' && !l.inFlow then l.fetchBlock false
  else if c = '>' && !l.inFlow then l.fetchBlock true
  else if c = '\'' then l.fetchQuoted true
  else if c = '"' then l.fetchQuoted false
  else if startsPlain l.inFlow c next then l.fetchPlain
  else none

def finish (l : Lexer) : Option Lexer :=
  (l.unindent (-1)).dropKeyStart

def run : Nat → Lexer → Option Lexer
  | 0, _ => none
  | fuel + 1, l =>
    match (l.skipToToken (l.cursor.rest.length + 1)).dropStale with
    | none => none
    | some l =>
      match l.cursor.head? with
      | none => l.finish
      | some c =>
        match (l.unindent l.cursor.column).fetch c with
        | none => none
        | some l => run fuel l

end Lexer

def Token.ofText (text : String) : Option (List Token) :=
  if text.toList.all isAllowed then
    (Lexer.run (text.length + 1) (.ofString text)).map (·.tokens.reverse)
  else none

end AddressLookup.Yaml
