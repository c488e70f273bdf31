import SheetLint.Disk
import SheetLint.InputPattern
import SheetLint.RunError

/-!
# Input files

The input files of a run are those that its patterns name, in the order of the patterns, each file
once.  A pattern with `!` in front excludes what it describes from all others; dependency
directories are excluded unless that is switched off.

A literal pattern names one file.  Any other pattern is expanded by a walk below its root, which
goes through each directory in the order of the names.  The walk follows no links, passes over
dotted names unless the pattern spells a dotted step, and does not enter directories whose whole
content is excluded.  What ignore rules say comes last.
-/

namespace SheetLint

/-- The patterns that exclude dependency directories. -/
def dependencyPatterns : List String := ["!**/node_modules/**", "!**/bower_components/**"]

/-- Given patterns with those that are added to them. -/
def allPatterns (disableDefaultIgnores : Bool) (patterns : List String) : List String :=
  if disableDefaultIgnores then patterns else patterns ++ dependencyPatterns

/-- What negated patterns exclude. -/
structure Exclusions where
  files : List Glob
  /-- Directories whose whole content is excluded. -/
  directories : List Glob
  deriving Repr, DecidableEq

/-- Reads the glob of a pattern. -/
def readPatternGlob (glob : String) : Except ConfigError Glob :=
  (Glob.read false glob).mapError .badPattern

namespace Exclusions

/-- Nothing is excluded. -/
def none : Exclusions := ⟨[], []⟩

/-- The exclusions with those of a further pattern. -/
def add (x : Exclusions) (p : InputPattern) : Except ConfigError Exclusions := do
  let file ← readPatternGlob p.globText
  let directory ← p.directoryGlobText?.mapM readPatternGlob
  .ok ⟨x.files ++ [file], x.directories ++ directory.toList⟩

/-- What the patterns exclude. -/
def ofPatterns (patterns : List InputPattern) : Except ConfigError Exclusions :=
  patterns.foldlM add none

/-- Whether the file is excluded. -/
def excludesFile (x : Exclusions) (path : String) : Bool :=
  x.files.any (·.matchesPath path)

/-- Whether the whole content of the directory is excluded. -/
def excludesDirectory (x : Exclusions) (path : String) : Bool :=
  x.directories.any (·.matchesPath path)

end Exclusions

/-! ## The walk below a root -/

/-- Whether a walk comes to the entry `name` of a directory; `path` is the path of the entry. -/
def walkAdmits (x : Exclusions) (namesHidden : Bool) (name path : String) (node : Disk.Node) :
    Bool :=
  (namesHidden || name.toList.head? != some '.') && !(node.isDir && x.excludesDirectory path)

mutual

/-- The paths of the files that a walk from a node comes to, a link being no file. -/
def walk (admits : String → String → Disk.Node → Bool) (path : String) : Disk.Node → List String
  | .file _ => [path]
  | .link _ => []
  | .dir entries => walkEntries admits path entries

/-- The paths of the files that a walk through entries of the directory at `path` comes to. -/
def walkEntries (admits : String → String → Disk.Node → Bool) (path : String) :
    List (String × Disk.Node) → List String
  | [] => []
  | (name, node) :: rest =>
    (if admits name (Path.join path name) node then walk admits (Path.join path name) node else [])
      ++ walkEntries admits path rest

end

/-- The node from which a walk starts.  A link is followed here, but only to a directory. -/
def walkStart (d : Disk) (root : String) : Disk.Node :=
  match d.entry root with
  | .ok (.link _) =>
    match d.node root with
    | .ok (.dir entries) => .dir entries
    | _ => .emptyDir
  | .ok node => node
  | .error _ => .emptyDir

namespace InputPattern

/-- The files that a pattern names, those that are excluded left out. -/
def expand (d : Disk) (x : Exclusions) (p : InputPattern) : Except ConfigError (List String) :=
  if p.isLiteral then
    .ok (if d.isNonDirectory p.root && !x.excludesFile p.root then [p.root] else [])
  else do
    let glob ← readPatternGlob p.globText
    let paths := walk (walkAdmits x p.namesHidden) p.root (walkStart d p.root)
    .ok (paths.filter fun path => glob.matchesPath path && !x.excludesFile path)

end InputPattern

/-! ## Resolution -/

/-- The pattern behind `!`, if there is one. -/
def negated? (pattern : String) : Option String :=
  (Text.behind? ['!'] pattern.toList).map String.ofList

/-- The paths without those that occur earlier. -/
def firstSeen (paths : List String) : List String :=
  paths.foldl (fun seen path => if seen.contains path then seen else seen ++ [path]) []

/-- The files that patterns name, as seen from a base directory. -/
def resolveInputs (d : Disk) (base : String) (disableDefaultIgnores : Bool)
    (patterns : List String) (ignore : IgnoreRules) : Except ConfigError (List String) := do
  let all := allPatterns disableDefaultIgnores patterns
  let x ← Exclusions.ofPatterns ((all.filterMap negated?).map (InputPattern.ofText base))
  let named := (all.filter fun p => (negated? p).isNone).map (InputPattern.ofText base)
  let paths ← named.mapM (·.expand d x)
  .ok (firstSeen (paths.flatten.filter fun path => !ignore.isIgnored path))

/-! ## Ignore files -/

/-- The name of the ignore file, unless another one is given. -/
def defaultIgnorePath : String := ".stylelintignore"

/-- The text of an ignore file, which may be missing. -/
def readIgnoreFile (d : Disk) (path : String) : Except RunError String :=
  match d.readText path with
  | .ok text => .ok text
  | .error .notFound => .ok ""
  | .error error => .error (.ignoreFile path error)

/-- The ignore rules of a base directory: the given ones, then those of the ignore file. -/
def loadIgnoreRules (d : Disk) (base : String) (ignorePath : Option String)
    (patterns : List String) : Except RunError IgnoreRules := do
  let text ← readIgnoreFile d (Path.join base (ignorePath.getD defaultIgnorePath))
  let lines := patterns ++ (Text.lines text.toList).map String.ofList
  (IgnoreRules.ofLines base lines).mapError fun bad => .config (.badIgnoreLine bad)

end SheetLint
