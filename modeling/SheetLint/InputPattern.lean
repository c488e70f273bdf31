import SheetLint.Glob
import SheetLint.Path

/-!
# Patterns of input files

A pattern names input files as seen from a base directory.  Its steps up to the first one with glob
characters are taken literally and, joined to the base directory, give the root of the pattern;
the remaining steps are a glob for what is below the root.  A pattern without such steps names a
single file.

In the glob of a pattern the root is escaped, so that its characters stand for themselves, save for
backslashes, which stay as they are.
-/

namespace SheetLint

/-- A pattern, as seen from its base directory. -/
structure InputPattern where
  /-- The file that is named, or the directory below which files are sought. -/
  root : String
  /-- The steps of the glob below the root, as they are spelled. -/
  rest : List String
  deriving Repr, DecidableEq

namespace InputPattern

/-- Whether the text of a step has characters of globs. -/
def hasGlobCharacters (step : String) : Bool :=
  step.toList.any fun c => ['*', '?', '[', ']', '\x7b', '\x7d'].contains c

/-- Reads a pattern. -/
def ofText (base text : String) : InputPattern :=
  let steps := Path.steps text
  let isPlain (step : Path.Step) := !hasGlobCharacters step.text
  ⟨Path.normalize (Path.join base (Path.ofSteps (steps.takeWhile isPlain))),
    (steps.dropWhile isPlain).map Path.Step.text⟩

/-- Whether the pattern names a single file. -/
def isLiteral (p : InputPattern) : Bool := p.rest.isEmpty

/-- Whether the glob names dotted names itself.  If it does not, they are passed over. -/
def namesHidden (p : InputPattern) : Bool :=
  p.rest.any fun step => step.toList.head? == some '.'

/-- The root, escaped and without slashes at its end. -/
def escapedRoot (p : InputPattern) : List Char :=
  Glob.escape (p.root.toList.reverse.dropWhile (· == '/')).reverse

/-- The glob of the pattern, for whole paths. -/
def globText (p : InputPattern) : String :=
  if p.isLiteral then String.ofList p.escapedRoot
  else String.ofList p.escapedRoot ++ "/" ++ "/".intercalate p.rest

/-- The glob of the directories whose whole content the pattern describes: the glob without `/**`
at its end, if it has that. -/
def directoryGlobText? (p : InputPattern) : Option String :=
  (Text.without? ['/', '*', '*'] p.globText.toList).map String.ofList

end InputPattern

end SheetLint
