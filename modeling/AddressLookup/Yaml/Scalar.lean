import AddressLookup.Yaml.Cursor

/-!
Scalars in YAML texts: plain, in single or double quotes, and block scalars. Lines inside a scalar are
folded: a single break becomes a space, of several the first is dropped.
-/

namespace AddressLookup.Yaml

inductive ScalarStyle where
  | plain
  | singleQuoted
  | doubleQuoted
  | literal
  | folded
  deriving DecidableEq, Repr

structure Gap where
  spansLines : Bool
  spaces : List Char
  leading : List Char
  trailing : List Char

namespace Gap

def none : Gap :=
  ⟨false, [], [], []⟩

def folded (g : Gap) : List Char :=
  if g.spansLines then
    if g.leading.head? = some '\n' then if g.trailing.isEmpty then [' '] else g.trailing
    else g.leading ++ g.trailing
  else g.spaces

/--
Takes in white space and line breaks. Where `indent` is given, a tab may not stand in for the indentation
of a continued line.
-/
def read (indent : Option Int) : Nat → Gap → Cursor → Option (Gap × Cursor)
  | 0, g, c => some (g, c)
  | fuel + 1, g, c =>
    match c.head? with
    | Option.none => some (g, c)
    | some x =>
      if isGap x then
        if g.spansLines then
          if x = '\t' && indent.any (fun n => (c.column : Int) < n) then Option.none
          else read indent fuel g (c.advance 1)
        else read indent fuel { g with spaces := g.spaces ++ [x] } (c.advance 1)
      else if isBreak x then
        let (text, next) := c.takeBreak
        if g.spansLines then read indent fuel { g with trailing := g.trailing ++ text } next
        else read indent fuel ⟨true, [], text, g.trailing⟩ next
      else some (g, c)

end Gap

structure Scalar where
  text : List Char
  cursor : Cursor
  /-- Whether the scalar was followed by a line break that has been taken in with it. -/
  endsLine : Bool

def isFlowMark (c : Char) : Bool :=
  c = ',' || c = '[' || c = ']' || c = '\x7b' || c = '\x7d'

def plainRun (inFlow : Bool) : List Char → Option (List Char)
  | [] => some []
  | c :: rest =>
    if isGap c || isBreak c then some []
    else if inFlow && c = ':' && rest.head?.any (fun d => isFlowMark d || d = '?') then none
    else if c = ':' && isGapOrEnd rest.head? || inFlow && isFlowMark c then some []
    else (plainRun inFlow rest).map (c :: ·)

def readPlainFrom (inFlow : Bool) (indent : Int) :
    Nat → List Char → Gap → Cursor → Option Scalar
  | 0, _, _, _ => none
  | fuel + 1, text, gap, c =>
    if c.isAtDocumentMarker || c.isAt '#' then some ⟨text, c, gap.spansLines⟩
    else
      match plainRun inFlow c.rest with
      | none => none
      | some run =>
        let c := c.advance run.length
        let text := if run.isEmpty then text else text ++ gap.folded ++ run
        let gap := if run.isEmpty then gap else Gap.none
        if c.rest.isEmpty || !isGapOrEnd c.head? then some ⟨text, c, gap.spansLines⟩
        else
          match gap.read (some indent) (c.rest.length + 1) c with
          | none => none
          | some (gap, c) =>
            if !inFlow && (c.column : Int) < indent then some ⟨text, c, gap.spansLines⟩
            else readPlainFrom inFlow indent fuel text gap c

def readPlain (inFlow : Bool) (indent : Int) (c : Cursor) : Option Scalar :=
  readPlainFrom inFlow indent (c.rest.length + 1) [] Gap.none c

def hexValue? (c : Char) : Option Nat :=
  if c.isDigit then some (c.toNat - '0'.toNat)
  else if 'a' ≤ c ∧ c ≤ 'f' then some (c.toNat - 'a'.toNat + 10)
  else if 'A' ≤ c ∧ c ≤ 'F' then some (c.toNat - 'A'.toNat + 10)
  else none

def hexChar? (digits : List Char) : Option Char := do
  let n ← digits.foldlM (fun n c => (hexValue? c).map (16 * n + ·)) 0
  if n.isValidChar then some (Char.ofNat n) else none

def simpleEscapes : List (Char × Char) :=
  [('0', '\x00'), ('a', '\x07'), ('b', '\x08'), ('t', '\t'), ('\t', '\t'), ('n', '\n'), ('v', '\x0b'),
    ('f', '\x0c'), ('r', '\r'), ('e', '\x1b'), (' ', ' '), ('"', '"'), ('/', '/'), ('\\', '\\'),
    ('N', '\u0085'), ('_', '\u00a0'), ('L', '\u2028'), ('P', '\u2029')]

def escape? (s : List Char) : Option (Char × Nat) :=
  match s with
  | [] => none
  | 'x' :: rest => hexEscape 2 rest
  | 'u' :: rest => hexEscape 4 rest
  | 'U' :: rest => hexEscape 8 rest
  | e :: _ => (simpleEscapes.lookup e).map (·, 1)
where
  hexEscape (n : Nat) (rest : List Char) : Option (Char × Nat) :=
    if (rest.take n).length = n then (hexChar? (rest.take n)).map (·, n + 1) else none

structure Stretch where
  text : List Char
  length : Nat
  escapesBreak : Bool

namespace Stretch

def stop : Stretch :=
  ⟨[], 0, false⟩

def push (c : Char) (n : Nat) (s : Stretch) : Stretch :=
  ⟨c :: s.text, s.length + n, s.escapesBreak⟩

end Stretch

/-- The stretch up to the next white space or closing quote; `skip` characters are still to be passed. -/
def singleQuotedRun : Nat → List Char → Stretch
  | _, [] => .stop
  | skip + 1, _ :: rest => singleQuotedRun skip rest
  | 0, c :: rest =>
    if isGap c || isBreak c then .stop
    else if c = '\'' then
      if rest.head? = some '\'' then (singleQuotedRun 1 rest).push '\'' 2 else .stop
    else (singleQuotedRun 0 rest).push c 1

def doubleQuotedRun : Nat → List Char → Option Stretch
  | _, [] => some .stop
  | skip + 1, _ :: rest => doubleQuotedRun skip rest
  | 0, c :: rest =>
    if isGap c || isBreak c || c = '"' then some .stop
    else if c = '\\' then
      if rest.head?.any isBreak then some ⟨[], 1, true⟩
      else
        match escape? rest with
        | none => none
        | some (x, n) => (doubleQuotedRun n rest).map (·.push x (n + 1))
    else (doubleQuotedRun 0 rest).map (·.push c 1)

def quotedRun (single : Bool) (s : List Char) : Option Stretch :=
  if single then some (singleQuotedRun 0 s) else doubleQuotedRun 0 s

def readQuotedFrom (single : Bool) : Nat → List Char → Cursor → Option Scalar
  | 0, _, _ => none
  | fuel + 1, text, c =>
    if c.isAtDocumentMarker || c.rest.isEmpty then none
    else
      match quotedRun single c.rest with
      | none => none
      | some run =>
        let c := c.advance run.length
        let text := text ++ run.text
        if c.isAt (if single then '\'' else '"') then some ⟨text, c.advance 1, false⟩
        else
          let gap : Gap := { Gap.none with spansLines := run.escapesBreak }
          let c := if run.escapesBreak then c.takeBreak.2 else c
          match gap.read none (c.rest.length + 1) c with
          | none => none
          | some (gap, c) => readQuotedFrom single fuel (text ++ gap.folded) c

def readQuoted (single : Bool) (c : Cursor) : Option Scalar :=
  readQuotedFrom single (c.rest.length + 1) [] (c.advance 1)

inductive Chomping where
  | strip
  | clip
  | keep
  deriving DecidableEq

def chomping? : Option Char → Option Chomping
  | some '+' => some .keep
  | some '-' => some .strip
  | _ => none

def indentDigit? (c : Cursor) : Option (Nat × Cursor) :=
  match c.head? with
  | some d =>
    if d = '0' then none
    else if d.isDigit then some (d.toNat - '0'.toNat, c.advance 1)
    else some (0, c)
  | none => some (0, c)

def readBlockHeader (c : Cursor) : Option (Chomping × Nat × Cursor) :=
  match chomping? c.head? with
  | some chomping => (indentDigit? (c.advance 1)).map fun (n, c) => (chomping, n, c)
  | none =>
    match indentDigit? c with
    | none => none
    | some (n, c) =>
      match if n = 0 then none else chomping? c.head? with
      | some chomping => some (chomping, n, c.advance 1)
      | none => some (.clip, n, c)

structure BlockBreaks where
  breaks : List Char
  indent : Nat
  cursor : Cursor

/-- Takes in blank lines; an indentation of zero stands for one that is still to be found. -/
def readBlockBreaks (parent : Int) (indent : Nat) :
    Nat → Nat → List Char → Cursor → Option BlockBreaks
  | 0, _, _, _ => none
  | fuel + 1, widest, breaks, c =>
    let allowed := if indent = 0 then c.rest.length else indent - c.column
    let c := c.advance ((c.rest.take allowed).takeWhile (· = ' ')).length
    let widest := max widest c.column
    if (indent = 0 || c.column < indent) && c.isAt '\t' then none
    else if c.head?.any isBreak then
      let (text, next) := c.takeBreak
      readBlockBreaks parent indent fuel widest (breaks ++ text) next
    else
      let found := max widest (max (parent + 1).toNat 1)
      some ⟨breaks, if indent = 0 then found else indent, c⟩

structure BlockText where
  text : List Char
  lineBreak : List Char
  breaks : List Char
  afterBlank : Bool

/-- Writes the pending line breaks; in a folded scalar a lone one between full lines becomes a space. -/
def BlockText.joined (b : BlockText) (fold startsBlank : Bool) : List Char :=
  if fold && b.lineBreak.head? = some '\n' && !b.afterBlank && !startsBlank then
    b.text ++ (if b.breaks.isEmpty then [' '] else []) ++ b.breaks
  else b.text ++ b.lineBreak ++ b.breaks

def readBlockLines (fold : Bool) (parent : Int) (indent : Nat) :
    Nat → BlockText → Cursor → Option (BlockText × Cursor)
  | 0, _, _ => none
  | fuel + 1, b, c =>
    if c.column = indent && !c.rest.isEmpty then
      let startsBlank := c.head?.any isGap
      let line := c.rest.takeWhile fun x => !isBreak x
      let text := b.joined fold startsBlank ++ line
      let (lineBreak, next) := (c.advance line.length).takeBreak
      match readBlockBreaks parent indent (next.rest.length + 1) 0 [] next with
      | none => none
      | some found =>
        readBlockLines fold parent indent fuel ⟨text, lineBreak, found.breaks, startsBlank⟩ found.cursor
    else some (b, c)

def readBlock (fold : Bool) (parent : Int) (c : Cursor) : Option Scalar := do
  let (chomping, increment, c) ← readBlockHeader (c.advance 1)
  let c := c.skipWhile isGap
  let c := if c.isAt '#' then c.skipWhile (fun x => !isBreak x) else c
  if isBreakOrEnd c.head? then
    let c := c.takeBreak.2
    let indent : Nat := if increment = 0 then 0 else (max parent 0).toNat + increment
    let found ← readBlockBreaks parent indent (c.rest.length + 1) 0 [] c
    let start : BlockText := ⟨[], [], found.breaks, false⟩
    let (b, c) ←
      readBlockLines fold parent found.indent (found.cursor.rest.length + 1) start found.cursor
    let text := if chomping = .strip then b.text else b.text ++ b.lineBreak
    some ⟨if chomping = .keep then text ++ b.breaks else text, c, true⟩
  else none

end AddressLookup.Yaml
