import SheetLint.Format.Sarif
import SheetLint.Format.Summary
import SheetLint.SourceResult.Json

/-!
# Output formats

A formatter turns the results of a run into text.  It is one of four formats with a name, or a
function of the caller's.
-/

namespace SheetLint

/-- The formats with a name. -/
inductive OutputFormat where
  | json
  | table
  | summary
  | sarif
  deriving Repr, DecidableEq

namespace OutputFormat

/-- All formats, in the order in which messages list them. -/
def all : List OutputFormat := [.json, .table, .summary, .sarif]

/-- The name by which a format is chosen. -/
def name : OutputFormat → String
  | .json => "json"
  | .table => "string"
  | .summary => "verbose"
  | .sarif => "sarif"

/-- The format of a name. -/
def ofName? (name : String) : Option OutputFormat :=
  all.find? (·.name == name)

/-- The results as an array without blanks. -/
def renderJson (results : List SourceResult) : String :=
  (Json.list SourceResult.toJson results).print

/-- The text of the results. -/
def render : OutputFormat → List SourceResult → String
  | .json => renderJson
  | .table => Format.table
  | .summary => Format.summary
  | .sarif => Format.sarif

end OutputFormat

/-- How a format is asked for. -/
inductive FormatChoice where
  | named (name : String)
  | custom (render : List SourceResult → String)

/-- A format that renders. -/
inductive Formatter where
  | builtin (format : OutputFormat)
  | custom (render : List SourceResult → String)

namespace Formatter

/-- The formatter that was asked for, `json` if none was; nothing when the name is unknown. -/
def ofChoice? : Option FormatChoice → Option Formatter
  | none => some (.builtin .json)
  | some (.custom render) => some (.custom render)
  | some (.named name) => (OutputFormat.ofName? name).map .builtin

/-- The text of the results. -/
def render : Formatter → List SourceResult → String
  | .builtin format => format.render
  | .custom render => render

end Formatter

end SheetLint
