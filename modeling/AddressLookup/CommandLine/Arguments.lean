import AddressLookup.CommandLine.Basic
import AddressLookup.Query.Parse

/-!
Reading of command lines. Options have a long name or a letter, and their values stand in the same
argument or in the next one. A value in the next argument is looked at only when the option after it has
been recognised, so an unknown argument goes before a bad value.

Arguments are any bytes. Those of a path are kept as they are; a text and a query have to be UTF-8.
-/

namespace AddressLookup

inductive UsageError where
  | unknownArgument
  | conflict
  | badValue
  | notText
  | badQuery (cause : Query.ParseError)
  | unwantedValue
  | missingArgument
  deriving DecidableEq, Repr

def UsageError.message : UsageError → String
  | unknownArgument => "unexpected argument"
  | conflict => "an argument is repeated or cannot be used with another"
  | badValue => "an argument lacks its value"
  | notText => "an argument is not valid UTF-8"
  | badQuery cause => "invalid query: " ++ cause.message
  | unwantedValue => "an argument takes no value"
  | missingArgument => "a required argument is missing"

inductive Invocation where
  | help
  | version
  | run (c : CommandLine)
  deriving DecidableEq, Repr

namespace CommandLine

def dash : UInt8 := 45

def equals : UInt8 := 61

inductive Word where
  | finish
  | long (name : List UInt8) (value : Option (List UInt8))
  | short (letter : UInt8) (rest : List UInt8)
  | plain
  deriving DecidableEq, Repr

def splitValue (bytes : List UInt8) : List UInt8 × Option (List UInt8) :=
  match bytes.dropWhile (· ≠ equals) with
  | [] => (bytes, none)
  | _ :: value => (bytes.takeWhile (· ≠ equals), some value)

def Word.ofBytes : List UInt8 → Word
  | first :: second :: rest =>
    if first ≠ dash then .plain
    else if second ≠ dash then .short second rest
    else if rest.isEmpty then .finish
    else .long (splitValue rest).1 (splitValue rest).2
  | _ => .plain

def attached? : List UInt8 → Option (List UInt8)
  | [] => none
  | b :: value => if b = equals then some value else some (b :: value)

def readPath (value : List UInt8) : Except UsageError Path :=
  if value.isEmpty then .error .badValue else .ok ⟨value⟩

def readText (value : List UInt8) : Except UsageError String :=
  match String.fromUTF8? value.toByteArray with
  | none => .error .notText
  | some text => .ok text

def readQuery (value : List UInt8) : Except UsageError String :=
  match readText value with
  | .error e => .error e
  | .ok text =>
    match Query.parse text with
    | .error e => .error (.badQuery e)
    | .ok _ => .ok text

def withValue (c : CommandLine) (value : List UInt8) : Setting → Except UsageError CommandLine
  | .file => (readPath value).map fun path => { c with file := some path }
  | .text => (readText value).map fun text => { c with text := some text }
  | .query => (readQuery value).map fun query => { c with query := some query }
  | .config => (readPath value).map fun path => { c with config := some path }

def store (c : CommandLine) (s : Setting) (value : List UInt8) : Except UsageError CommandLine :=
  if c.isGiven s then .error .conflict else c.withValue value s

/-- What has been taken up, and the option whose value, if there is one yet, has still to be. -/
structure Draft where
  line : CommandLine
  pending : Option (Setting × Option (List UInt8))

def Draft.settle (d : Draft) : Except UsageError CommandLine :=
  match d.pending with
  | none => .ok d.line
  | some (_, none) => .error .badValue
  | some (s, some value) => d.line.store s value

def complete (c : CommandLine) : Except UsageError Invocation :=
  if c.file.isSome && c.text.isSome then .error .conflict
  else if c.explain && c.query.isNone then .error .missingArgument
  else if !c.explain && c.file.isNone && c.text.isNone then .error .missingArgument
  else .ok (.run c)

inductive Progress where
  | continue (d : Draft)
  | stop (i : Invocation)

def raise (c : CommandLine) : Flag → Except UsageError Progress
  | .explain =>
    if c.explain then .error .conflict else .ok (.continue ⟨{ c with explain := true }, none⟩)
  | .json => if c.json then .error .conflict else .ok (.continue ⟨{ c with json := true }, none⟩)
  | .help => .ok (.stop .help)
  | .version => .ok (.stop .version)

def Draft.option (d : Draft) (k : Key) (value : Option (List UInt8)) : Except UsageError Progress :=
  match k, value with
  | .setting s, none => d.settle.map fun c => .continue ⟨c, some (s, none)⟩
  | .setting s, some value => do
    let c ← d.settle
    let c ← c.store s value
    .ok (.continue ⟨c, none⟩)
  | .flag f, _ => do
    let c ← d.settle
    c.raise f

def Draft.take (d : Draft) (argument : List UInt8) : Word → Except UsageError Progress
  | .finish => .ok (.continue d)
  | .long name value =>
    match longNames.lookup name, value with
    | none, _ => .error .unknownArgument
    | some (.flag _), some _ => .error .unwantedValue
    | some k, value => d.option k value
  | .short letter rest =>
    match letters.lookup letter with
    | none => .error .unknownArgument
    | some k => d.option k (attached? rest)
  | .plain =>
    match d.pending with
    | some (s, none) => .ok (.continue { d with pending := some (s, some argument) })
    | _ => .error .unknownArgument

def Draft.read : Draft → List (List UInt8) → Except UsageError Invocation
  | d, [] => do
    let c ← d.settle
    c.complete
  | d, argument :: rest =>
    match Word.ofBytes argument, rest with
    | .finish, _ :: _ => .error .unknownArgument
    | word, rest =>
      match d.take argument word with
      | .error e => .error e
      | .ok (.stop i) => .ok i
      | .ok (.continue d) => d.read rest

/-- Reads the arguments of a run, of which the first is the name of the program. -/
def parse (arguments : List (List UInt8)) : Except UsageError Invocation :=
  Draft.read ⟨∅, none⟩ arguments.tail

def versionText : String := "iplens 0.1.0\n"

end CommandLine

end AddressLookup
