import AddressLookup.Error
import AddressLookup.Files.Tree
import AddressLookup.Instant.Basic
import AddressLookup.Text.Blank
import AddressLookup.Text.Lossy
import AddressLookup.Yaml.Typed

/-!
Settings of a run. They are read from a YAML file in which every section and every setting may be left
out; the directory of the caches may also be given by the environment, which goes before the file.
-/

namespace AddressLookup

structure Config where
  cacheDirectory : Path
  expirationDays : Option UInt32
  geoUrl : String
  rdapUrl : String
  timeoutSeconds : UInt64
  deriving DecidableEq, Repr

namespace Config

def fileName : String := "iplens.yaml"

def standard : Config where
  cacheDirectory := .ofString ".iplens"
  expirationDays := some 30
  geoUrl := "https://freegeoip.app/json/"
  rdapUrl := "https://rdap.arin.net/bootstrap/ip/"
  timeoutSeconds := 30

def lifetime (c : Config) : Option Lifetime :=
  c.expirationDays.map fun days => .ofDays days.toNat

def cacheFile (c : Config) (name : String) : Path :=
  c.cacheDirectory.join (.ofString name)

open Yaml

def readDays (d : Document) (n : Node) : Option (Option UInt32) :=
  d.optional (fun n => (d.natural UInt32.size n).map UInt32.ofNat) n

def readSeconds (d : Document) (n : Node) : Option UInt64 :=
  (d.natural UInt64.size n).map UInt64.ofNat

def readCacheSection (d : Document) (c : Config) (n : Node) : Option Config := do
  let fields ← d.fields ["dir", "expiration_days"] n
  let directory ← Document.fieldOr fields "dir" c.cacheDirectory fun n => (d.text? n).map .ofString
  let days ← Document.fieldOr fields "expiration_days" c.expirationDays (readDays d)
  some { c with cacheDirectory := directory, expirationDays := days }

def readUrlSection (d : Document) (url : String) (n : Node) : Option String := do
  let fields ← d.fields ["base_url"] n
  Document.fieldOr fields "base_url" url d.text?

def readHttpSection (d : Document) (seconds : UInt64) (n : Node) : Option UInt64 := do
  let fields ← d.fields ["timeout_secs"] n
  Document.fieldOr fields "timeout_secs" seconds (readSeconds d)

def ofDocument (d : Document) : Option Config :=
  match d.root with
  | none => some standard
  | some root => do
    let fields ← d.fields ["cache", "geo", "rdap", "http"] root
    let c ← Document.fieldOr fields "cache" standard (readCacheSection d standard)
    let geo ← Document.fieldOr fields "geo" c.geoUrl (readUrlSection d c.geoUrl)
    let rdap ← Document.fieldOr fields "rdap" c.rdapUrl (readUrlSection d c.rdapUrl)
    let seconds ← Document.fieldOr fields "http" c.timeoutSeconds (readHttpSection d c.timeoutSeconds)
    some { c with geoUrl := geo, rdapUrl := rdap, timeoutSeconds := seconds }

def parse (text : String) : Option Config :=
  (Document.parse text).bind ofDocument

def load (fs : Files) (path : Path) : Except Error Config :=
  match fs.readText path with
  | .error e => .error (.file e)
  | .ok text =>
    match parse text with
    | none => .error (.configuration "malformed settings")
    | some c => .ok c

def isBlankSetting (value : List UInt8) : Bool :=
  (Text.trim (Text.lossy value)).isEmpty

def override (c : Config) (directory : Option (List UInt8)) : Config :=
  match directory with
  | some value => if isBlankSetting value then c else { c with cacheDirectory := ⟨value⟩ }
  | none => c

def resolve (fs : Files) (path : Option Path) : Except Error Config :=
  match path with
  | some path => load fs path
  | none =>
    match fs.probe (.ofString fileName) with
    | .error e => .error (.file e)
    | .ok true => load fs (.ofString fileName)
    | .ok false => .ok standard

end Config

end AddressLookup
