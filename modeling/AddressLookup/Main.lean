import AddressLookup.CommandLine.Arguments
import AddressLookup.CommandLine.Run
import Std.Time.DateTime.Timestamp

/-!
The program. What a run may look at is taken up from the disk, the run itself is computed, and the files
that it changed are put back. Requests find no network here, so only cached documents can be reported.
-/

namespace AddressLookup.Program

def usageText : String :=
  "Usage: iplens [--file PATH | --text TEXT] [--query QUERY] [--explain] [--json] [--config PATH]\n"

def workingFiles : IO Files := do
  let path := Path.ofString (← IO.currentDir).toString
  let files := (Files.makeDirectories ⟨[], .top⟩ .top path.steps).1
  return { files with workingDirectory := (files.locate path).toOption.getD .top }

def put (files : Files) (path : Path) (content : ByteArray) : Files :=
  let files := ((FileAction.makeParents path).perform files).1
  ((FileAction.write path content).perform files).1

def takeUp (files : Files) (path : Path) : IO Files := do
  match path.text? with
  | none => return files
  | some name =>
    try
      return put files path (← IO.FS.readBinFile name)
    catch
      | .noFileOrDirectory .. => return files
      | _ => return (files.makeDirectories (files.start path) path.steps).1

def takeUpInput (files : Files) (c : CommandLine) : IO Files := do
  let files ←
    match c.file with
    | some file => takeUp files file
    | none => pure files
  takeUp files (c.config.getD (.ofString Config.fileName))

def cachePaths (c : CommandLine) (w : World) : List Path :=
  match c.settings w with
  | .ok config => [Service.geo, .rdap].map fun s => config.cacheFile s.cacheFileName
  | .error _ => []

def contentAt (files : Files) (path : Path) : Option (List UInt8) :=
  (files.read path).toOption.map fun content => content.data.toList

def putBack (files : Files) (path : Path) : IO Unit := do
  match path.text?, path.temporary.text?, files.read path with
  | some name, some temporary, .ok content =>
    let around := (name.toList.reverse.dropWhile (· ≠ '/')).reverse
    if !around.isEmpty then IO.FS.createDirAll (String.ofList around)
    IO.FS.writeBinFile temporary content
    IO.FS.rename temporary name
  | _, _, _ => return

def present : IO Clock := do
  let now := (← Std.Time.Timestamp.now).toNanosecondsSinceUnixEpoch.toInt
  match Instant.ofParts? (now / 1000000000) (now % 1000000000).toNat with
  | some t => return .still t
  | none => throw (IO.userError "the clock is out of range")

def startWorld (c : CommandLine) : IO World := do
  let files ← takeUpInput (← workingFiles) c
  let setting := (← IO.getEnv "IPLENS_CACHE_DIR").map fun s => s.toUTF8.data.toList
  let w := { World.initial files .unreachable (← present) with cacheSetting := setting }
  let files ← (cachePaths c w).foldlM takeUp files
  return { w with files }

def run (c : CommandLine) : IO UInt32 := do
  let w ← startWorld c
  let color ← (← IO.getStdout).isTty
  let ran := c.run color w
  for path in cachePaths c w do
    if contentAt ran.world.files path ≠ contentAt w.files path then
      try putBack ran.world.files path catch _ => pure ()
  IO.print ran.output
  match ran.outcome with
  | .ok _ => return 0
  | .error e =>
    IO.eprintln ("Error: " ++ ((e.context?.map (· ++ ": ")).getD "") ++ e.message)
    return 1

end AddressLookup.Program

open AddressLookup in
def main (arguments : List String) : IO UInt32 := do
  match CommandLine.parse (("iplens" :: arguments).map fun argument => argument.toUTF8.data.toList) with
  | .error e =>
    IO.eprintln ("error: " ++ e.message)
    IO.eprint Program.usageText
    return 2
  | .ok .help =>
    IO.print Program.usageText
    return 0
  | .ok .version =>
    IO.print CommandLine.versionText
    return 0
  | .ok (.run c) => Program.run c
