import AddressLookup.Address
import AddressLookup.CommandLine.Basic
import AddressLookup.Report
import AddressLookup.Source.Merge
import AddressLookup.Source.Remote

/-!
Running a command line: the addresses in the input are looked up, the query is applied, and the result is
reported. Only a run that succeeds reports anything. Whatever the lookups come to, the caches are saved
after them, and a cache that cannot be saved is no failure of the run.
-/

namespace AddressLookup

inductive Failure where
  | noQuery
  | noInput
  | unreadable (path : Path) (cause : FileError)
  | failed (cause : Error)
  deriving DecidableEq, Repr

namespace CommandLine

structure Run where
  outcome : Except Failure Unit
  output : String
  world : World

namespace Run

def fail (e : Failure) (w : World) : Run :=
  ⟨.error e, "", w⟩

def report (output : String) (w : World) : Run :=
  ⟨.ok (), output, w⟩

end Run

def format (c : CommandLine) : Report.Format :=
  if c.json then .json else .text

def runExplain (c : CommandLine) (color : Bool) (w : World) : Run :=
  match c.query with
  | none => .fail .noQuery w
  | some text =>
    match Query.parse text with
    | .error e => .fail (.failed (.query e)) w
    | .ok q => .report (Report.ofQuery c.format color q) w

def addresses (c : CommandLine) (fs : Files) : Except Failure (List String) :=
  match c.file, c.text with
  | some path, _ =>
    match fs.readText path with
    | .error e => .error (.unreadable path e)
    | .ok text => .ok (Address.extract text)
  | none, some text => .ok (Address.extract text)
  | none, none => .error .noInput

def settings (c : CommandLine) (w : World) : Except Error Config :=
  (Config.resolve w.files c.config).map (·.override w.cacheSetting)

def sources (c : CommandLine) (w : World) : Except Error (List RemoteSource) :=
  match c.settings w with
  | .error e => .error e
  | .ok config => RemoteSource.openAll config w.files

def conclude (c : CommandLine) (color : Bool) (w : World) : Except Error Dataset → Run
  | .error e => .fail (.failed e) w
  | .ok d => .report (Report.ofDataset c.format color d) w

/-- The working directory is part of the files, so it is always known: the end of a run that cannot tell it, once
the addresses are read, is left out. -/
def runLookup (c : CommandLine) (color : Bool) (w : World) : Run :=
  match c.addresses w.files with
  | .error e => .fail e w
  | .ok keys =>
    match c.sources w with
    | .error e => .fail (.failed e) w
    | .ok sources =>
      let ran := FieldSource.run sources keys c.query w
      let saved := FieldSource.saveAll ran.source ran.world
      c.conclude color saved.world ran.outcome

def run (c : CommandLine) (color : Bool) (w : World) : Run :=
  if c.explain then c.runExplain color w else c.runLookup color w

end CommandLine

namespace Failure

def message : Failure → String
  | noQuery => "--explain requires --query"
  | noInput => "Either --file or --text is required"
  | unreadable _ cause => (Error.file cause).message
  | failed cause => cause.message

def context? : Failure → Option String
  | unreadable path _ => some ("Failed to read " ++ path.display)
  | _ => none

end Failure

end AddressLookup
