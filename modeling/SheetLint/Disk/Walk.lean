import SheetLint.Disk.Node
import SheetLint.Text

/-!
# Following a path through a tree

A path is followed piece by piece from a directory.  Empty pieces and `.` stay where they are, `..`
goes to the directory around, and a name goes to the entry of that name.  A symbolic link is
replaced by the pieces of its target, unless it comes last and is asked for itself; at most
`linkLimit` links are followed.

Following stops at a node, or at the directory in which the last name is missing.  A slash behind
the last name asks for a directory.  A path that leads nowhere is refused, with one of the errors
that the file system has for all its requests.
-/

namespace SheetLint

/-- Why the file system refuses a request, or why what it gives is of no use. -/
inductive SystemError where
  | notFound
  | alreadyExists
  | notADirectory
  | isADirectory
  | nameTooLong
  | tooManyLinks
  /-- A path that holds the character zero. -/
  | zeroInPath
  /-- The bytes of a file are no text. -/
  | notText
  deriving Repr, DecidableEq

/-- The wording of a refusal. -/
def SystemError.message : SystemError → String
  | .notFound => "No such file or directory (os error 2)"
  | .alreadyExists => "File exists (os error 17)"
  | .notADirectory => "Not a directory (os error 20)"
  | .isADirectory => "Is a directory (os error 21)"
  | .nameTooLong => "File name too long (os error 36)"
  | .tooManyLinks => "Too many levels of symbolic links (os error 40)"
  | .zeroInPath => "file name contained an unexpected NUL byte"
  | .notText => "stream did not contain valid UTF-8"

namespace Disk

/-- Where a path leads. -/
inductive Target where
  | found (place : List String) (node : Node)
  /-- There is a directory at `directory`, but no entry `name` in it. -/
  | missing (directory : List String) (name : String)

/-- The number of links that one path may lead through. -/
def linkLimit : Nat := 40

/-- The number of bytes that a name may have. -/
def nameLimit : Nat := 255

/-- The number of bytes that a path may have. -/
def pathLimit : Nat := 4095

/-- A path as pieces. -/
def piecesOf (path : String) : List String :=
  (Text.pieces '/' path.toList).map String.ofList

/-- The outcome of following pieces up to the next link. -/
inductive Stop where
  | target (t : Target)
  /-- A link in the directory at `directory`, with the pieces behind it. -/
  | link (directory : List String) (target : String) (rest : List String)

/-- Follows pieces from the directory at `here`, up to the next link.  `asLink` tells whether a link
in the last place is asked for itself. -/
def followToLink (tree : Node) (asLink : Bool) (here : List String) :
    List String → Except SystemError Stop
  | [] =>
    match tree.at? here with
    | some node => .ok (.target (.found here node))
    | none => .error .notFound
  | piece :: rest =>
    if piece = "" ∨ piece = "." then followToLink tree asLink here rest
    else if piece = ".." then followToLink tree asLink here.dropLast rest
    else if nameLimit < piece.utf8ByteSize then .error .nameTooLong
    else
      match (tree.at? here).bind (·.child? piece) with
      | none => if rest.isEmpty then .ok (.target (.missing here piece)) else .error .notFound
      | some (.dir _) => followToLink tree asLink (here ++ [piece]) rest
      | some (.link target) =>
        if rest.isEmpty ∧ asLink then .ok (.target (.found (here ++ [piece]) (.link target)))
        else .ok (.link here target rest)
      | some (.file content) =>
        if rest.isEmpty then .ok (.target (.found (here ++ [piece]) (.file content)))
        else .error .notADirectory

/-- Follows pieces through at most `links` links. -/
def follow (tree : Node) (asLink : Bool) : Nat → List String → List String →
    Except SystemError Target
  | links, here, pieces => do
    match ← followToLink tree asLink here pieces with
    | .target t => .ok t
    | .link directory target rest =>
      match links with
      | 0 => .error .tooManyLinks
      | links + 1 =>
        let start := if target.toList.head? = some '/' then [] else directory
        follow tree asLink links start (piecesOf target ++ rest)

end Disk

end SheetLint
