import AddressLookup.Cache.Document
import AddressLookup.Error
import AddressLookup.Files.Plan

/-!
Caches that are kept in files. A cache without a file yet is empty; saving purges expired entries and
replaces the file at one stroke.
-/

namespace AddressLookup.Cache

def openFile (fs : Files) (path : Path) (lifetime : Option Lifetime) : Except Error Cache :=
  match fs.readText path with
  | .error .notFound => .ok ⟨some path, lifetime, ∅⟩
  | .error e => .error (.file e)
  | .ok text =>
    match parseDocument text with
    | none => .error (.badCache path)
    | some entries => .ok ⟨some path, lifetime, entries⟩

def savePlan (c : Cache) : FilePlan :=
  match c.path with
  | none => .finish (.ok ())
  | some path => .replace path (documentText c.entries).toUTF8

structure Saved where
  cache : Cache
  files : Files
  outcome : Except Error Unit

def save (c : Cache) (now : Instant) (fs : Files) : Saved :=
  let kept := c.purge now
  let (after, outcome) := kept.savePlan.run fs
  ⟨kept, after, outcome.mapError .file⟩

end AddressLookup.Cache
