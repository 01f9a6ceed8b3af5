import LabelMail.Console.Run
import LabelMail.Disk.Stored

/-!
The program. The files that a command line can concern are read from the disk, the run is computed
on them, and those that it has changed are written back. The program is the look into the replica
if it goes by that name, and the mailbox server otherwise.
-/
namespace LabelMail

open Disk

def pathText (p : Path) : String := "/" ++ "/".intercalate p

/-- The paths that a text leads through, each longer text after the shorter ones. -/
def stations (current : Path) (text : String) : List Path :=
  let parts := Path.parts text
  (List.range parts.length).map fun n =>
    (parts.take (n + 1)).foldl Path.step (Path.start current text)

/-- The disk after a place was looked at. What can be opened but not read is a directory. -/
def visit (d : Disk) (p : Path) : IO Disk := do
  try
    let content ← IO.FS.readBinFile (pathText p)
    return d.write p (.ofBytes content.toList)
  catch
    | .noFileOrDirectory .. => return d
    | _ =>
      if d.isDirectory p.dropLast then return { d with directories := p :: d.directories }
      else return d

def explore (d : Disk) (text : String) : IO Disk :=
  (stations d.current text).foldlM visit d

/-- The files of the databases that the settings name. -/
def databaseFiles (s : Settings) : List String :=
  [s.url, s.replicaUrl].filterMap fun url =>
    match Location.parse url >>= Location.target with
    | .ok name => name
    | .error _ => none

def configOf (arguments : List String) : String :=
  match Console.CommandLine.read arguments with
  | .ok line => line.config
  | .error _ => Console.defaultConfig

/-- The part of the disk that a run with these settings can concern. -/
def surroundings (current : Path) (config : String) : IO Disk := do
  let parents := (List.range current.length).map fun n => current.take (n + 1)
  let d ← explore ⟨parents, [], current⟩ config
  match d.settings config with
  | .ok s => (databaseFiles s).foldlM explore d
  | .error _ => return d

def writeBack (before after : Disk) : IO Unit :=
  after.files.forM fun (p, c) => do
    if before.file? p ≠ some c then IO.FS.writeBinFile (pathText p) ⟨c.toBytes.toArray⟩

def runHere (program : List String → Disk → Console.Ending × Disk) (config : String)
    (arguments : List String) : IO Console.Ending := do
  let current := Path.follow [] (toString (← IO.currentDir))
  let before ← surroundings current config
  let (ending, after) := program arguments before
  writeBack before after
  return ending

end LabelMail

open LabelMail in
def main (arguments : List String) : IO UInt32 := do
  let name := (Disk.Path.parts (toString (← IO.appPath))).getLast?
  let ending ←
    if name = some "inspect_db" then runHere Console.inspection Console.defaultConfig arguments
    else runHere Console.mail (configOf arguments) arguments
  IO.print ending.printed
  if !ending.complaint.isEmpty then IO.eprintln ending.complaint
  return ending.code.toUInt32
