import SheetLint.Text

/-!
# Spelled paths

A path is a text; this module says what its spelling means without looking at any file.  Repeated
slashes, a trailing slash and inner `.` steps do not change what a path names.
-/

namespace SheetLint.Path

/-- A step of a path. -/
inductive Step where
  /-- The slash at the front of an absolute path. -/
  | root
  /-- A `.` at the front of a relative path. -/
  | here
  /-- A `..`. -/
  | up
  | name (text : String)
  deriving Repr, DecidableEq

/-- Whether the path begins at the root. -/
def isAbsolute (path : String) : Bool :=
  path.toList.head? == some '/'

/-- The steps between the slashes of a text, `.` and empty ones left out. -/
def innerSteps (text : List Char) : List Step :=
  (Text.pieces '/' text).filterMap fun piece =>
    if piece = [] ∨ piece = ['.'] then none
    else if piece = ['.', '.'] then some .up
    else some (.name (String.ofList piece))

/-- The steps of a path. -/
def steps (path : String) : List Step :=
  let text := path.toList
  if isAbsolute path then .root :: innerSteps text
  else if (Text.pieces '/' text).head? = some ['.'] then .here :: innerSteps text
  else innerSteps text

/-- A step as it is spelled. -/
def Step.text : Step → String
  | .root => "/"
  | .here => "."
  | .up => ".."
  | .name text => text

/-- `path` as seen from `base`: itself when it is absolute, else behind a slash. -/
def join (base path : String) : String :=
  if isAbsolute path then path
  else if base.isEmpty ∨ base.toList.getLast? = some '/' then base ++ path
  else base ++ "/" ++ path

/-- The path that steps spell. -/
def ofSteps (path : List Step) : String :=
  path.foldl (fun base step => join base step.text) ""

/-- The steps with `.` and `..` carried out, as far as names go: the root has no parent. -/
def normalSteps (path : List Step) : List Step :=
  (path.foldl visit []).reverse
where
  /-- Adds a step to steps in reverse. -/
  visit (visited : List Step) : Step → List Step
    | .here => visited
    | .up =>
      match visited with
      | [.root] => visited
      | _ => visited.tail
    | step => step :: visited

/-- The path with `.` and `..` carried out without looking at any file. -/
def normalize (path : String) : String :=
  ofSteps (normalSteps (steps path))

/-- The name that the last step gives, if it gives one. -/
def fileName? (path : String) : Option String :=
  match (steps path).getLast? with
  | some (.name text) => some text
  | _ => none

/-- The part of the file name behind its last dot, unless that dot is its first character. -/
def extension? (path : String) : Option String := do
  let reversed := (← fileName? path).toList.reverse
  match Text.breakAt (· == '.') reversed with
  | (ending, some (_ :: _)) => some (String.ofList ending.reverse)
  | _ => none

/-! ## Parts of a spelling -/

/-- Whether a piece between slashes names a step. -/
def isStep (piece : List Char) : Bool :=
  piece != [] && piece != ['.']

/-- Pieces with slashes between them. -/
def ofPieces (pieces : List (List Char)) : String :=
  String.ofList (['/'].intercalate pieces)

/-- The pieces without those at the end that name no step. -/
def trimPieces (pieces : List (List Char)) : List (List Char) :=
  (pieces.reverse.dropWhile fun piece => !isStep piece).reverse

/-- The pieces behind the first `n` that name a step. -/
def dropSteps : Nat → List (List Char) → List (List Char)
  | 0, pieces => pieces
  | _, [] => []
  | n + 1, piece :: pieces =>
    if isStep piece then dropSteps n pieces else dropSteps (n + 1) pieces

/-- The path without its last step, spelled as before.  The root and the empty path have no
parent. -/
def parent? (path : String) : Option String :=
  match Text.pieces '/' path.toList with
  | [] => none
  | front :: rest =>
    match trimPieces rest, front with
    | [], [] => none
    | [], _ => some ""
    | rest, [] => some ("/" ++ ofPieces (trimPieces rest.dropLast))
    | rest, front => some (ofPieces (front :: trimPieces rest.dropLast))

/-- What is left of an absolute path behind the steps of `base`, if it begins with them.  Without a
step in `base` that is the path itself. -/
def below? (base path : String) : Option String :=
  let ours := steps path
  let theirs := steps base
  let inner := trimPieces (Text.pieces '/' path.toList).tail
  if !theirs.isPrefixOf ours then none
  else if theirs.isEmpty then some ("/" ++ ofPieces inner)
  else some (ofPieces ((dropSteps (theirs.length - 1) inner).dropWhile fun p => !isStep p))

end SheetLint.Path
