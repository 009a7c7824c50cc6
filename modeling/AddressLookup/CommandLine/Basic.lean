import AddressLookup.Files.Path

/-! The command line: what to look up, how to query it and in which form to report it. -/

namespace AddressLookup

structure CommandLine where
  file : Option Path
  text : Option String
  query : Option String
  explain : Bool
  json : Bool
  config : Option Path
  deriving DecidableEq, Repr

namespace CommandLine

def empty : CommandLine :=
  ⟨none, none, none, false, false, none⟩

instance : EmptyCollection CommandLine := ⟨empty⟩

inductive Setting where
  | file
  | text
  | query
  | config
  deriving DecidableEq, Repr

inductive Flag where
  | explain
  | json
  | help
  | version
  deriving DecidableEq, Repr

inductive Key where
  | setting (s : Setting)
  | flag (f : Flag)
  deriving DecidableEq, Repr

def longNames : List (List UInt8 × Key) :=
  [("file".toUTF8, .setting .file), ("text".toUTF8, .setting .text), ("query".toUTF8, .setting .query),
    ("config".toUTF8, .setting .config), ("explain".toUTF8, .flag .explain), ("json".toUTF8, .flag .json),
    ("help".toUTF8, .flag .help), ("version".toUTF8, .flag .version)].map fun (name, k) => (name.data.toList, k)

def letters : List (UInt8 × Key) :=
  [('f'.toUInt8, .setting .file), ('t'.toUInt8, .setting .text), ('q'.toUInt8, .setting .query),
    ('c'.toUInt8, .setting .config), ('h'.toUInt8, .flag .help), ('V'.toUInt8, .flag .version)]

def isGiven (c : CommandLine) : Setting → Bool
  | .file => c.file.isSome
  | .text => c.text.isSome
  | .query => c.query.isSome
  | .config => c.config.isSome

end CommandLine

end AddressLookup
