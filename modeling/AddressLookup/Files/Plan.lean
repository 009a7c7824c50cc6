import AddressLookup.Files.Tree

/-!
Plans of file operations, in which each next operation may depend on how the last one went. A plan can
be run on a tree of files, and the trees that it passes through can be listed.
-/

namespace AddressLookup

inductive FileAction where
  | makeParents (p : Path)
  | write (p : Path) (content : ByteArray)
  | remove (p : Path)
  | rename (p q : Path)

namespace FileAction

def perform : FileAction → Files → Files × Except FileError Unit
  | makeParents p, fs =>
    match Files.checkBytes p.parent with
    | .error e => (fs, .error e)
    | .ok _ => fs.makeDirectories (fs.start p) p.steps.dropLast
  | write p content, fs => settle fs (fs.write p content)
  | remove p, fs => settle fs (fs.remove p)
  | rename p q, fs => settle fs (fs.rename p q)
where
  settle (fs : Files) : Except FileError Files → Files × Except FileError Unit
    | .ok fs => (fs, .ok ())
    | .error e => (fs, .error e)

end FileAction

inductive FilePlan where
  | finish (result : Except FileError Unit)
  | act (action : FileAction) (next : Except FileError Unit → FilePlan)

namespace FilePlan

def run : FilePlan → Files → Files × Except FileError Unit
  | finish result, fs => (fs, result)
  | act action next, fs =>
    let (fs, outcome) := action.perform fs
    (next outcome).run fs

def states : FilePlan → Files → List Files
  | finish _, fs => [fs]
  | act action next, fs =>
    let (after, outcome) := action.perform fs
    fs :: (next outcome).states after

end FilePlan

/-- Replaces a file at one stroke: its new content is written beside it and then moved over it. -/
def FilePlan.replace (p : Path) (content : ByteArray) : FilePlan :=
  act (.makeParents p) fun
    | .error e => finish (.error e)
    | .ok _ => act (.write p.temporary content) fun
      | .error e => act (.remove p.temporary) fun _ => finish (.error e)
      | .ok _ => act (.rename p.temporary p) finish

end AddressLookup
