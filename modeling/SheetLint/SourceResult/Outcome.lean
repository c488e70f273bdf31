import SheetLint.Engine

/-!
# From an engine's answer to a result

Findings become a result of the source they are about.  A failure that the stylesheet is to blame
for becomes a result with one error in the place of the failure; any other failure is handed back.
-/

namespace SheetLint.SourceResult

/-- The result that findings on a source amount to. -/
def ofFindings (source : String) (findings : Findings) : SourceResult :=
  refresh {
    source := source
    deprecations := findings.deprecations
    invalidOptions := findings.invalidOptions
    parseErrors := findings.parseErrors
    errored := false
    warnings := findings.warnings
    disabledRanges := findings.disabledRanges
    disabledWarnings := findings.disabledWarnings }

/-- The end of a warning's text that repeats its rule. -/
def ruleSuffix (rule : String) : String :=
  " (" ++ rule ++ ")"

/-- The warning that shows a failure. -/
def failureWarning (f : Failure) : Warning :=
  ⟨f.line, f.column, f.discriminator, .error, f.reason ++ ruleSuffix f.discriminator⟩

/-- The result that a failure amounts to, or the failure itself when it ends the run. -/
def ofFailure (f : Failure) : Except Failure SourceResult :=
  if f.isMalformedSource then
    .ok (ofFindings (f.file.getD unnamedSource) { warnings := [failureWarning f] })
  else .error f

/-- The result of an engine's answer on the source labelled `source`. -/
def ofAnswer (source : String) : Except Failure Findings → Except Failure SourceResult
  | .ok findings => .ok (ofFindings source findings)
  | .error failure => ofFailure failure

end SheetLint.SourceResult
