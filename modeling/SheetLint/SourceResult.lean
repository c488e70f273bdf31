import SheetLint.DisabledRange
import SheetLint.Warning

/-!
# The result of linting one source

A result is errored when one of its warnings is an error or a parse error was met.  `make` and
`refresh` establish this; a result that was read from text keeps the flag it was given.
-/

namespace SheetLint

/-- The label of a source without a name. -/
def unnamedSource : String := "<input css 1>"

/-- What a lint of one source says. -/
structure SourceResult where
  /-- The path or the name of the source, or `unnamedSource`. -/
  source : String
  deprecations : List Deprecation
  invalidOptions : List InvalidOption
  parseErrors : List ParseError
  errored : Bool
  warnings : List Warning
  disabledRanges : List DisabledRange
  /-- The warnings that a disabled range suppressed. -/
  disabledWarnings : List Warning
  deriving Repr, DecidableEq

namespace SourceResult

/-- Whether the findings fail the run. -/
def fails (r : SourceResult) : Bool :=
  !r.parseErrors.isEmpty || r.warnings.any Warning.isError

/-- The result with its flag recomputed from its findings. -/
def refresh (r : SourceResult) : SourceResult :=
  { r with errored := r.fails }

/-- The number of warnings that are errors. -/
def errorCount (r : SourceResult) : Nat :=
  r.warnings.countP Warning.isError

/-- The number of warnings that are not errors. -/
def warningCount (r : SourceResult) : Nat :=
  r.warnings.length - r.errorCount

end SourceResult

end SheetLint
