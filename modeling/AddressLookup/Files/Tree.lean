import AddressLookup.Files.Path

/-!
The files and directories that a program sees, and what reading, writing, renaming and making directories
do to them. An operation that fails changes nothing, except that directories already made stay.
-/

namespace AddressLookup

inductive FileError where
  | notFound
  | notDirectory
  | isDirectory
  | nameTooLong
  | invalidName
  | notText
  deriving DecidableEq, Repr

inductive Item where
  | file (content : ByteArray)
  | directory

/--
Where an item is: its name, then those of the directories around it up to the top. How many names there
are is kept with them, so that places at different depths are told apart at once.
-/
structure Place where
  depth : Nat
  names : List Name
  deriving DecidableEq, Repr

namespace Place

def top : Place :=
  ⟨0, []⟩

def into (place : Place) (name : Name) : Place :=
  ⟨place.depth + 1, name :: place.names⟩

def around (place : Place) : Place :=
  ⟨place.depth - 1, place.names.tail⟩

end Place

structure Files where
  items : List (Place × Item)
  workingDirectory : Place

namespace Files

def item? (fs : Files) (place : Place) : Option Item :=
  if place = .top then some .directory else fs.items.lookup place

def put (fs : Files) (place : Place) (item : Item) : Files :=
  { fs with items := (place, item) :: fs.items.filter fun e => e.1 ≠ place }

def erase (fs : Files) (place : Place) : Files :=
  { fs with items := fs.items.filter fun e => e.1 ≠ place }

def longestName : Nat := 255

def checkName (name : Name) : Except FileError Unit :=
  if name.length ≤ longestName then .ok () else .error .nameTooLong

def enter (fs : Files) (place : Place) : Path.Step → Except FileError Place
  | .up => .ok place.around
  | .into name => do
    checkName name
    match fs.item? (place.into name) with
    | some .directory => .ok (place.into name)
    | some (.file _) => .error .notDirectory
    | none => .error .notFound

def walk (fs : Files) : Place → List Path.Step → Except FileError Place
  | place, [] => .ok place
  | place, step :: steps => do
    let place ← fs.enter place step
    fs.walk place steps

def longestPath : Nat := 4095

def checkBytes (p : Path) : Except FileError Unit :=
  if p.bytes.contains 0 then .error .invalidName
  else if p.bytes.length ≤ longestPath then .ok ()
  else .error .nameTooLong

def checkPath (p : Path) : Except FileError Unit := do
  checkBytes p
  if p.bytes.isEmpty then .error .notFound else .ok ()

def start (fs : Files) (p : Path) : Place :=
  if p.isAbsolute then .top else fs.workingDirectory

/-- The place that a path leads to; the directories on the way must exist, the place itself need not. -/
def locate (fs : Files) (p : Path) : Except FileError Place := do
  checkPath p
  let directory ← fs.walk (fs.start p) p.steps.dropLast
  match p.steps.getLast? with
  | none => .ok directory
  | some .up => .ok directory.around
  | some (.into name) => do
    checkName name
    .ok (directory.into name)

def read (fs : Files) (p : Path) : Except FileError ByteArray := do
  let place ← fs.locate p
  match fs.item? place with
  | none => .error .notFound
  | some .directory => .error .isDirectory
  | some (.file content) => if p.needsDirectory then .error .notDirectory else .ok content

def readText (fs : Files) (p : Path) : Except FileError String := do
  let content ← fs.read p
  match String.fromUTF8? content with
  | some text => .ok text
  | none => .error .notText

def probe (fs : Files) (p : Path) : Except FileError Bool :=
  match fs.locate p with
  | .ok place => .ok (fs.item? place).isSome
  | .error .notFound => .ok false
  | .error e => .error e

def makeDirectories (fs : Files) (place : Place) : List Path.Step → Files × Except FileError Unit
  | [] => (fs, .ok ())
  | .up :: steps => fs.makeDirectories place.around steps
  | .into name :: steps =>
    match checkName name with
    | .error e => (fs, .error e)
    | .ok _ =>
      match fs.item? (place.into name) with
      | some .directory => fs.makeDirectories (place.into name) steps
      | some (.file _) => (fs, .error .notDirectory)
      | none => (fs.put (place.into name) .directory).makeDirectories (place.into name) steps

def write (fs : Files) (p : Path) (content : ByteArray) : Except FileError Files := do
  let place ← fs.locate p
  match fs.item? place with
  | some .directory => .error .isDirectory
  | some (.file _) =>
    if p.needsDirectory then .error .notDirectory else .ok (fs.put place (.file content))
  | none => if p.needsDirectory then .error .isDirectory else .ok (fs.put place (.file content))

def remove (fs : Files) (p : Path) : Except FileError Files := do
  let place ← fs.locate p
  match fs.item? place with
  | none => .error .notFound
  | some .directory => .error .isDirectory
  | some (.file _) => if p.needsDirectory then .error .notDirectory else .ok (fs.erase place)

def rename (fs : Files) (p q : Path) : Except FileError Files := do
  let content ← fs.read p
  let source ← fs.locate p
  let target ← fs.locate q
  match fs.item? target with
  | some .directory => .error .isDirectory
  | _ =>
    if q.needsDirectory then .error .notDirectory
    else .ok ((fs.erase source).put target (.file content))

end Files

end AddressLookup
