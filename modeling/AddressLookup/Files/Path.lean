import AddressLookup.Text.Lossy
import AddressLookup.Text.Split

/-!
Paths of files as they are written: any bytes, cut into names by slashes. A path leads from the working
directory, or from the top if it starts with a slash, step by step to a place in the tree of files.
-/

namespace AddressLookup

abbrev Name := List UInt8

structure Path where
  bytes : List UInt8
  deriving DecidableEq, Repr

namespace Path

def slash : UInt8 := 47

def dot : UInt8 := 46

inductive Step where
  | up
  | into (name : Name)
  deriving DecidableEq, Repr

def ofString (s : String) : Path :=
  ⟨s.toUTF8.data.toList⟩

def text? (p : Path) : Option String :=
  String.fromUTF8? p.bytes.toByteArray

def display (p : Path) : String :=
  .ofList (Text.lossy p.bytes)

def isAbsolute (p : Path) : Bool :=
  p.bytes.head? == some slash

def join (p q : Path) : Path :=
  if q.isAbsolute || p.bytes.isEmpty then q
  else if p.bytes.getLast? == some slash then ⟨p.bytes ++ q.bytes⟩
  else ⟨p.bytes ++ slash :: q.bytes⟩

def segments (p : Path) : List (List UInt8) :=
  Text.splitOn slash p.bytes

def stepOf? (segment : List UInt8) : Option Step :=
  if segment = [] || segment = [dot] then none
  else if segment = [dot, dot] then some .up
  else some (.into segment)

def steps (p : Path) : List Step :=
  p.segments.filterMap stepOf?

def needsDirectory (p : Path) : Bool :=
  match p.segments.getLast? with
  | some segment => segment = [] || segment = [dot]
  | none => true

def lastName? (p : Path) : Option Name :=
  match p.steps.getLast? with
  | some (.into name) => some name
  | _ => none

/-- Cuts slashes and single dots off the end of a path that is given backwards. -/
def dropEnding : List UInt8 → List UInt8
  | [] => []
  | b :: rest =>
    if b = slash then dropEnding rest
    else if b = dot && rest.head? == some slash then dropEnding rest
    else b :: rest

/-- The path of the directory that the path leads to an entry of; no bytes if that is where it starts. -/
def parent (p : Path) : Path :=
  let before := (dropEnding ((dropEnding p.bytes.reverse).dropWhile (· ≠ slash))).reverse
  if before.isEmpty && p.isAbsolute then ⟨[slash]⟩ else ⟨before⟩

/-- A name cut at its last dot, into its stem and its extension. A name without a dot after its first byte is
all stem. -/
def splitName (name : Name) : Name × Option Name :=
  match name.reverse.dropWhile (· ≠ dot) with
  | [] | [_] => (name, none)
  | _ :: before => (before.reverse, some (name.reverse.takeWhile (· ≠ dot)).reverse)

def extension? (p : Path) : Option Name :=
  p.lastName?.bind fun name => (splitName name).2

def withExtension (p : Path) (extension : Name) : Path :=
  match p.lastName? with
  | none => p
  | some name =>
    let named := (dropEnding p.bytes.reverse).reverse
    let stem := named.take (named.length - name.length) ++ (splitName name).1
    if extension.isEmpty then ⟨stem⟩ else ⟨stem ++ dot :: extension⟩

def temporaryExtension : Name := [116, 109, 112]

def temporarySuffix : Name := dot :: temporaryExtension

/-- The path beside a file to which its next content is written first: `tmp` comes after the extension of the
name, or is the extension of a name that has none. -/
def temporary (p : Path) : Path :=
  match p.extension? with
  | some extension => p.withExtension (extension ++ temporarySuffix)
  | none => p.withExtension temporaryExtension

end Path

end AddressLookup
