import SheetLint.Run

/-!
# Showing a real file system as a disk

A run is a function of a disk.  For a real file system the disk holds the part that the run looks
at: `RunOptions.readPaths` names the single files and directories, and `RunOptions.walkRoots` the
directories that are walked through.  After the run, `Disk.changes` tells what to change in reality.
-/

namespace SheetLint

namespace RunOptions

/-- The patterns that are expanded, `!` being left out. -/
def inputPatterns (o : RunOptions) (d : Disk) : List InputPattern :=
  match o.input with
  | .ok (.files patterns) =>
    (patterns.filter fun p => (negated? p).isNone).map (InputPattern.ofText (o.baseDirIn d))
  | _ => []

/-- The paths at which a run looks at single files and directories. -/
def readPaths (o : RunOptions) (d : Disk) : List String :=
  let base := o.baseDirIn d
  let location := Path.join base (o.cacheLocation.getD Cache.defaultFileName)
  [Path.join base (o.ignorePath.getD defaultIgnorePath), location,
    Path.join location Cache.defaultFileName] ++ (o.inputPatterns d).map InputPattern.root

/-- The directories that a run walks through. -/
def walkRoots (o : RunOptions) (d : Disk) : List String :=
  ((o.inputPatterns d).filter fun p => !p.isLiteral).map InputPattern.root

end RunOptions

namespace Disk

/-- Something to do to a real file system. -/
inductive Change where
  | makeDir (path : String)
  | writeFile (path : String) (content : ByteArray)

mutual

/-- What has to be done so that `before` becomes the node; `path` is where both are. -/
def changesAt (path : String) (before : Option Node) : Node → List Change
  | .file content =>
    match before with
    | some (.file old) => if old == content then [] else [.writeFile path content]
    | _ => [.writeFile path content]
  | .link _ => []
  | .dir entries =>
    (if before.isSome then [] else [.makeDir path]) ++ changesIn path before entries

/-- What has to be done so that the entries of a directory become the given ones. -/
def changesIn (path : String) (before : Option Node) : List (String × Node) → List Change
  | [] => []
  | (name, node) :: rest =>
    changesAt (path ++ "/" ++ name) (before.bind (·.child? name)) node ++
      changesIn path before rest

end

/-- What has to be done so that a disk becomes another one to which something was added. -/
def changes (before after : Disk) : List Change :=
  changesAt "" (some before.tree) after.tree

end Disk

end SheetLint
