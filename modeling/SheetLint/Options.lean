import SheetLint.RunError

/-!
# Options of a run

A run lints either an inline source or the files that patterns name.  `RunOptions.input` decides
which of the two the options ask for, and refuses options that ask for neither or for both.
-/

namespace SheetLint

/-- Patterns as they were given. -/
inductive FilePatterns where
  | one (pattern : String)
  | many (patterns : List String)
  deriving Repr, DecidableEq

/-- The patterns as a list. -/
def FilePatterns.toList : FilePatterns → List String
  | .one pattern => [pattern]
  | .many patterns => patterns

/-- The options of a run. -/
structure RunOptions where
  files : Option FilePatterns := none
  /-- An inline source. -/
  code : Option String := none
  /-- The name of the inline source. -/
  codeName : Option String := none
  settings : EngineSettings := {}
  format : Option FormatChoice := none
  /-- The ignore file, as seen from the base directory. -/
  ignorePath : Option String := none
  /-- Ignore rules that go before those of the ignore file. -/
  ignorePatterns : List String := []
  /-- Files in dependency directories are linted too. -/
  disableDefaultIgnores : Bool := false
  cache : Bool := false
  /-- Where results are stored, as seen from the base directory. -/
  cacheLocation : Option String := none
  /-- The base directory, as seen from the current directory. -/
  baseDir : Option String := none

/-- What a run lints. -/
inductive Input where
  | code (text : String) (name : Option String)
  | files (patterns : List String)
  deriving Repr, DecidableEq

namespace RunOptions

/-- The patterns that count: a single empty pattern is none. -/
def givenFiles (o : RunOptions) : Option FilePatterns :=
  o.files.filter (· != .one "")

/-- What the options ask to lint. -/
def input (o : RunOptions) : Except ConfigError Input :=
  match o.givenFiles, o.code with
  | some files, none => .ok (.files files.toList)
  | none, some text => .ok (.code text o.codeName)
  | _, _ => .error .inputChoice

/-- The formatter that the options ask for. -/
def formatter (o : RunOptions) : Except ConfigError Formatter :=
  match Formatter.ofChoice? o.format with
  | some f => .ok f
  | none => .error .unknownFormat

end RunOptions

end SheetLint
