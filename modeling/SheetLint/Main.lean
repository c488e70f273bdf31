import SheetLint.Program
import SheetLint.Snapshot

/-!
# The executable

Shows the program the part of the real file system that it looks at, runs it, and carries out what
it did.  Nothing is decided here.
-/

namespace SheetLint.Main

open Disk (Node Change)

/-- The path of a place. -/
def pathOf (place : List String) : String := "/" ++ "/".intercalate place

/-- A target for links that lead nowhere. -/
def deadEnd : String := "/dev/null/missing"

/-- Where a real link leads. -/
def linkTarget (path : String) : IO String :=
  try return (← IO.FS.realPath path).toString catch _ => return deadEnd

/-- The real node at a path, a directory with its content only if `withContent` is set. -/
partial def capture (path : String) (withContent : Bool) : IO (Option Node) := do
  try
    let file := (← IO.FS.realPath "/") / path
    match (← file.symlinkMetadata).type with
    | .dir =>
      if !withContent then return some .emptyDir
      let mut entries : Keyed Node := []
      for entry in ← file.readDir do
        if let some node ← capture (path ++ "/" ++ entry.fileName) true then
          entries := entries.insert entry.fileName node
      return some (.dir entries)
    | .file => return some (.file (← IO.FS.readBinFile file))
    | .symlink => return some (.link (← linkTarget path))
    | .other => return none
  catch _ => return none

/-- The paths of the directories around a path, and the path itself. -/
def pathsTo (path : String) : List String :=
  let pieces := Disk.piecesOf path
  (List.range pieces.length).map fun n => "/".intercalate (pieces.take (n + 1))

/-- The disk with what a path leads to. -/
partial def reach (d : Disk) (path : String) : IO Disk :=
  (pathsTo path).foldlM (fun d path => do
    match d.target path true with
    | .ok (.missing directory name) =>
      let place := directory ++ [name]
      match ← capture (pathOf place) false with
      | some (.link target) => reach (d.put place (.link target)) target
      | some node => return d.put place node
      | none => return d
    | _ => return d) d

/-- The disk with everything below a directory. -/
def reachBelow (d : Disk) (path : String) : IO Disk := do
  match d.target path false with
  | .ok (.found place (.dir _)) =>
    match ← capture (pathOf place) true with
    | some node => return d.put place node
    | none => return d
  | _ => return d

/-- The disk that holds the working directory and nothing else. -/
def start : IO Disk := do
  let path := (← IO.currentDir).toString
  let d ← reach ⟨.emptyDir, []⟩ path
  return { d with workingPlace := (Disk.piecesOf path).filter (· != "") }

/-- Carries out a change, as far as it can be. -/
def perform (change : Change) : IO Unit := do
  try
    match change with
    | .makeDir path => IO.FS.createDir path
    | .writeFile path content => IO.FS.writeBinFile path content
  catch _ => return

/-- The disk for a run under the given options. -/
def forRun (d : Disk) (o : RunOptions) : IO Disk := do
  let d ← (o.readPaths d).foldlM reach d
  (o.walkRoots d).foldlM reachBelow d

/-- What reading the standard input gives. -/
def readInput : IO (Except SystemError String) := do
  match String.fromUTF8? (← (← IO.getStdin).readBinToEnd) with
  | some text => return .ok text
  | none => return .error .notText

/-- The disk and the standard input for a command line. -/
def view (line : CommandLine) : IO (Disk × Except SystemError String) := do
  let d ← start
  let d ← (line.value? .optionsFile).toList.foldlM reach d
  match line.options d with
  | .error _ => return (d, .ok "")
  | .ok o =>
    let input ← if o.files.isNone && o.code.isNone then readInput else pure (.ok "")
    return (← forRun d o, input)

end SheetLint.Main

open SheetLint in
/-- Runs the program. -/
def main (arguments : List String) : IO UInt32 := do
  let (d, input) ←
    match CommandLine.read arguments with
    | .ok line =>
      try Main.view line
      catch error =>
        IO.eprintln ("error: " ++ toString error)
        return 1
    | .error _ => pure (⟨.emptyDir, []⟩, .ok "")
  let exit := programReading d arguments input
  (d.changes exit.disk).forM Main.perform
  IO.print exit.output
  IO.eprint exit.notice
  return exit.code.toUInt32
