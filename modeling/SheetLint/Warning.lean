/-!
# Warnings and the other findings of a lint

Positions are one-based, as the engine that reports them counts.
-/

namespace SheetLint

/-- How much a warning matters: an error fails the run. -/
inductive Severity where
  | error
  | warning
  deriving Repr, DecidableEq

/-- The name of a severity in every output. -/
def Severity.name : Severity → String
  | .error => "error"
  | .warning => "warning"

/-- The severities, gravest first. -/
def Severity.all : List Severity := [.error, .warning]

/-- A problem that a rule found at a position of a source. -/
structure Warning where
  line : Nat
  column : Nat
  rule : String
  severity : Severity
  text : String
  deriving Repr, DecidableEq

/-- Whether the warning fails the run. -/
def Warning.isError (w : Warning) : Bool :=
  w.severity == .error

/-- A problem met while reading a source that did not stop the lint. -/
structure ParseError where
  line : Nat
  column : Nat
  text : String
  deriving Repr, DecidableEq

/-- A deprecated rule or option in use. -/
structure Deprecation where
  text : String
  reference : Option String
  deriving Repr, DecidableEq

/-- A rule option that the engine rejected. -/
structure InvalidOption where
  text : String
  deriving Repr, DecidableEq

end SheetLint
