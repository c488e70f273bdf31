import SheetLint.Disk.Walk
import SheetLint.Path

/-!
# The file system as a value

A disk is a tree of files and the place of the working directory in it.  What a program does to
files is a function from disks to answers and new disks, so that "nothing else has changed" is an
equation.

A relative path is followed from the working directory.  Writing goes through links, also through
one whose target is still missing; making a directory does not.
-/

namespace SheetLint

/-- A file system. -/
structure Disk where
  tree : Disk.Node
  /-- The names that lead to the working directory. -/
  workingPlace : List String

namespace Disk

/-- The path of the working directory. -/
def workingDir (d : Disk) : String :=
  "/" ++ "/".intercalate d.workingPlace

/-- Where a path leads. -/
def target (d : Disk) (path : String) (asLink : Bool) : Except SystemError Target :=
  if path.isEmpty then .error .notFound
  else if path.toList.contains '\x00' then .error .zeroInPath
  else if pathLimit < path.utf8ByteSize then .error .nameTooLong
  else
    let start := if Path.isAbsolute path then [] else d.workingPlace
    follow d.tree asLink linkLimit start (piecesOf path)

/-- The node at a path, links being followed. -/
def node (d : Disk) (path : String) : Except SystemError Node := do
  match ← d.target path false with
  | .found _ node => .ok node
  | .missing .. => .error .notFound

/-- The node at a path, a link in the last place not being followed. -/
def entry (d : Disk) (path : String) : Except SystemError Node := do
  match ← d.target path true with
  | .found _ node => .ok node
  | .missing .. => .error .notFound

/-- Whether the path leads to anything. -/
def pathExists (d : Disk) (path : String) : Bool :=
  match d.node path with
  | .ok _ => true
  | .error _ => false

/-- Whether the path leads to a directory. -/
def isDir (d : Disk) (path : String) : Bool :=
  match d.node path with
  | .ok node => node.isDir
  | .error _ => false

/-- Whether there is a file or a link at the path. -/
def isNonDirectory (d : Disk) (path : String) : Bool :=
  match d.entry path with
  | .ok node => !node.isDir
  | .error _ => false

/-- The bytes of the file at a path. -/
def read (d : Disk) (path : String) : Except SystemError ByteArray := do
  match ← d.node path with
  | .file content => .ok content
  | _ => .error .isADirectory

/-- The text of the file at a path. -/
def readText (d : Disk) (path : String) : Except SystemError String := do
  match String.fromUTF8? (← d.read path) with
  | some text => .ok text
  | none => .error .notText

/-- The disk with a node at a place. -/
def put (d : Disk) (place : List String) (node : Node) : Disk :=
  { d with tree := d.tree.put node place }

/-- The path without slashes at its end. -/
def withoutEndSlashes (path : String) : String :=
  String.ofList (path.toList.reverse.dropWhile (· == '/')).reverse

/-- The path without its last piece, the slash before that being kept. -/
def withoutLastPiece (path : String) : String :=
  String.ofList (path.toList.reverse.dropWhile (· != '/')).reverse

/-- The refusal to write to a path that asks for a directory by a slash at its end.  What stands at
its last name is not looked at. -/
def refuseDirectory (d : Disk) (path : String) : SystemError :=
  let spelled := withoutEndSlashes path
  let last := (piecesOf spelled).getLastD ""
  let isName := last ≠ "" ∧ last ≠ "." ∧ last ≠ ".."
  let around := withoutLastPiece spelled
  match d.node (if ¬ isName then path else if around = "" then "." else around) with
  | .ok _ => .isADirectory
  | .error error => error

/-- Writes a file, in place of what it held before. -/
def write (d : Disk) (path : String) (content : ByteArray) : Except SystemError Disk := do
  if path.toList.getLast? = some '/' then .error (d.refuseDirectory path)
  else
    match ← d.target path false with
    | .found place (.file _) => .ok (d.put place (.file content))
    | .found .. => .error .isADirectory
    | .missing directory name => .ok (d.put (directory ++ [name]) (.file content))

/-- Makes a directory, whose parent has to exist. -/
def makeDir (d : Disk) (path : String) : Except SystemError Disk := do
  if path.isEmpty then .error .notFound
  else
    match
      ← d.target (if withoutEndSlashes path = "" then path else withoutEndSlashes path) true with
    | .found .. => .error .alreadyExists
    | .missing directory name => .ok (d.put (directory ++ [name]) .emptyDir)

/-- A request that can stop half-way: its answer, and the disk afterwards. -/
structure Attempt where
  answer : Except SystemError Unit
  disk : Disk

/-- Makes a directory, which is no failure if there is one. -/
def ensureDir (d : Disk) (path : String) : Attempt :=
  match d.makeDir path with
  | .ok d => ⟨.ok (), d⟩
  | .error error => ⟨if d.isDir path then .ok () else .error error, d⟩

/-- Makes a directory after its parents, in at most `rounds` steps outwards. -/
def makeDirsFrom (d : Disk) : Nat → String → Attempt
  | 0, _ => ⟨.ok (), d⟩
  | rounds + 1, path =>
    if path.isEmpty then ⟨.ok (), d⟩
    else
      match d.makeDir path, Path.parent? path with
      | .error .notFound, some parent =>
        match makeDirsFrom d rounds parent with
        | ⟨.ok (), d⟩ => d.ensureDir path
        | stopped => stopped
      | _, _ => d.ensureDir path

/-- Makes a directory and its parents, as far as they are missing. -/
def makeDirs (d : Disk) (path : String) : Attempt :=
  d.makeDirsFrom (path.length + 1) path

/-- Makes a symbolic link. -/
def makeLink (d : Disk) (path target : String) : Except SystemError Disk := do
  match ← d.target path true with
  | .found .. => .error .alreadyExists
  | .missing directory name => .ok (d.put (directory ++ [name]) (.link target))

/-- Removes a file, a link, or a directory with everything in it. -/
def remove (d : Disk) (path : String) : Except SystemError Disk := do
  match ← d.target path true with
  | .found place _ => .ok { d with tree := d.tree.remove place }
  | .missing .. => .error .notFound

/-- Everything in the working directory, in the order of its spelling. -/
def listing (d : Disk) : List String :=
  match d.tree.at? d.workingPlace with
  | some node => (node.listing "").mergeSort fun a b => !(b < a)
  | none => []

end Disk

end SheetLint
