import AddressLookup.Cache.Basic
import AddressLookup.Instant.Text
import AddressLookup.Json.Reader
import AddressLookup.Json.Writer

/-!
The file of a cache: one JSON object with a member for each key, in the order of the keys, whose value
holds the expiry and the document. An entry may also be read from an array of the two; members of an
entry that the format does not know are passed over, whatever they hold.
-/

namespace AddressLookup.Cache

namespace Entry

def expiryJson (e : Entry) : Json :=
  match e.expires with
  | none => .null
  | some t => .string t.text

def toJson (e : Entry) : Json :=
  .object [("expires_at", e.expiryJson), ("data", e.data)]

end Entry

def document (entries : KeyMap Entry) : Json :=
  .object (entries.entries.map fun (key, e) => (key, e.toJson))

def documentText (entries : KeyMap Entry) : String :=
  (document entries).compact

open Json

variable {α : Type}

def skipDigits : Step Unit := fun s =>
  match s with
  | c :: rest => if c.isDigit then some ((), rest.dropWhile Char.isDigit) else none
  | [] => none

def skipExponent : Step Unit := fun s =>
  match s with
  | 'e' :: rest => skipSigned rest
  | 'E' :: rest => skipSigned rest
  | _ => some ((), s)
where
  skipSigned (s : List Char) : Option (Unit × List Char) :=
    match s with
    | '+' :: rest => skipDigits rest
    | '-' :: rest => skipDigits rest
    | _ => skipDigits s

def skipFraction : Step Unit := fun s =>
  match s with
  | '.' :: rest =>
    match skipDigits rest with
    | none => none
    | some (_, rest) => skipExponent rest
  | _ => skipExponent s

def skipNumber : Step Unit := fun s =>
  let digits := if s.head? = some '-' then s.drop 1 else s
  match digits with
  | [] => none
  | c :: rest =>
    if c = '0' then
      if (rest.head?.map Char.isDigit).getD false then none else skipFraction rest
    else if c.isDigit then skipFraction (rest.dropWhile Char.isDigit)
    else none

/-- Passes over the rest of a string, whatever characters its escapes stand for. -/
def skipString : List Char → Option (Unit × List Char)
  | [] => none
  | c :: rest =>
    if c = '"' then some ((), rest)
    else if c = '\\' then
      match rest with
      | 'u' :: a :: b :: c :: d :: more =>
        if (Quoted.unit? a b c d).isSome then skipString more else none
      | e :: more => if (Quoted.unescape? e).isSome then skipString more else none
      | [] => none
    else if c.toNat < 0x20 then none
    else skipString rest

def skipWord (word : List Char) : Step Unit := fun s =>
  (word.isPrefixOf? s).map ((), ·)

def skipName : Step Unit := fun s =>
  match skipSpace s with
  | '"' :: rest =>
    match skipString rest with
    | none => none
    | some (_, rest) =>
      match skipSpace rest with
      | ':' :: rest => some ((), rest)
      | _ => none
  | _ => none

def skipValue : Nat → Step Unit
  | 0, _ => none
  | depth + 1, s =>
    match skipSpace s with
    | 'n' :: rest => skipWord ['u', 'l', 'l'] rest
    | 't' :: rest => skipWord ['r', 'u', 'e'] rest
    | 'f' :: rest => skipWord ['a', 'l', 's', 'e'] rest
    | '"' :: rest => skipString rest
    | '[' :: rest => (readSequence (skipValue depth) ']' rest).map fun (_, rest) => ((), rest)
    | '\x7b' :: rest =>
      (readSequence (skipMember (skipValue depth)) '\x7d' rest).map fun (_, rest) => ((), rest)
    | s => skipNumber s
where
  skipMember (value : Step Unit) : Step Unit := fun s =>
    match skipName s with
    | none => none
    | some (_, rest) => value rest

def dataDepth : Nat := depthLimit - 2

def readExpiry : Step (Option Instant) := fun s =>
  match skipSpace s with
  | 'n' :: rest => (skipWord ['u', 'l', 'l'] rest).map fun (_, rest) => (none, rest)
  | '"' :: rest =>
    match Quoted.read rest with
    | none => none
    | some (text, rest) => (Instant.parse text).map fun t => (some t, rest)
  | _ => none

inductive Part where
  | expires (expires : Option Instant)
  | data (data : Json)
  | other

def readPart : Step Part := fun s =>
  match readName s with
  | none => none
  | some (name, rest) =>
    if name = "expires_at" then (readExpiry rest).map fun (e, rest) => (.expires e, rest)
    else if name = "data" then (readValue dataDepth rest).map fun (v, rest) => (.data v, rest)
    else (skipValue (rest.length + 1) rest).map fun (_, rest) => (.other, rest)

def entryOf? (parts : List Part) : Option Entry :=
  let expiries := parts.filterMap fun | .expires e => some e | _ => none
  let documents := parts.filterMap fun | .data v => some v | _ => none
  match expiries, documents with
  | [], [v] => some ⟨none, v⟩
  | [e], [v] => some ⟨e, v⟩
  | _, _ => none

def readPair : Step Entry := fun s =>
  match readExpiry s with
  | none => none
  | some (expires, rest) =>
    match skipSpace rest with
    | ',' :: rest =>
      match readValue dataDepth rest with
      | none => none
      | some (data, rest) =>
        match skipSpace rest with
        | ']' :: rest => some (⟨expires, data⟩, rest)
        | _ => none
    | _ => none

def readEntry : Step Entry := fun s =>
  match skipSpace s with
  | '[' :: rest => readPair rest
  | '\x7b' :: rest =>
    match readSequence readPart '\x7d' rest with
    | none => none
    | some (parts, rest) => (entryOf? parts).map (·, rest)
  | _ => none

def parseDocumentChars (s : List Char) : Option (KeyMap Entry) :=
  match skipSpace s with
  | '\x7b' :: rest =>
    match readSequence (readMember readEntry) '\x7d' rest with
    | some (members, rest) => if (skipSpace rest).isEmpty then some (KeyMap.ofList members) else none
    | none => none
  | _ => none

def parseDocument (text : String) : Option (KeyMap Entry) :=
  parseDocumentChars text.toList

end AddressLookup.Cache
