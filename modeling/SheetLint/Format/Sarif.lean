import SheetLint.Format.Table
import SheetLint.Json.Printer
import SheetLint.Json.Shaped

/-!
# The SARIF log

A log of one run, in version 2.1.0 of the format: one result for each warning, and the rules that
occur, each once and in the order of first occurrences.  Without a rule there is no list of rules.
-/

namespace SheetLint.Format

/-- The name of the tool in the log. -/
def toolName : String := "stylelint"

/-- The version of the tool. -/
def toolVersion : String := "0.1.0"

/-- The schema of the log. -/
def sarifSchema : String :=
  "https://raw.githubusercontent.com/oasis-tcs/sarif-spec/master/Schemata/sarif-schema-2.1.0.json"

/-- A warning of a source in the log. -/
def sarifResult (source : String) (w : Warning) : Json :=
  .obj [("ruleId", .str w.rule), ("level", .str w.severity.name),
    ("message", .obj [("text", .str (withoutRule w.text w.rule))]),
    ("locations", .arr [.obj [("physicalLocation",
      .obj [("artifactLocation", .obj [("uri", .str source)]),
        ("region", .obj [("startLine", Json.nat w.line), ("startColumn", Json.nat w.column)])])]])]

/-- A rule in the log. -/
def sarifRule (rule : String) : Json :=
  .obj [("id", .str rule), ("name", .str rule)]

/-- The log of all results. -/
def sarifLog (results : List SourceResult) : Json :=
  let rules := firstOfEach id [] (results.flatMap fun r => r.warnings.map (·.rule))
  let driver := [("name", .str toolName), ("version", .str toolVersion)] ++
    (if rules.isEmpty then [] else [("rules", Json.list sarifRule rules)])
  .obj [("$schema", .str sarifSchema), ("version", .str "2.1.0"),
    ("runs", .arr [.obj [("tool", .obj [("driver", .obj driver)]),
      ("results", .arr (results.flatMap fun r => r.warnings.map (sarifResult r.source)))]])]

/-- The text of the log. -/
def sarif (results : List SourceResult) : String :=
  (sarifLog results).printIndented

end SheetLint.Format
