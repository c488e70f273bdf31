import SheetLint.Engine.Structural
import SheetLint.Text

/-!
# Engines given by rules on the text

A scripted engine is a list of rules.  The first rule whose pattern occurs in the source decides;
without one the structural engine answers.  A rule can answer by itself, or let the structural
engine answer and add a warning for each line that holds the pattern.
-/

namespace SheetLint.Engine.Scripted

/-- The file that a failure names. -/
inductive FailureFile where
  | none
  | named (file : String)
  /-- The name of the source that failed. -/
  | ofSource

/-- What a rule answers. -/
inductive Response where
  /-- A failure, whose file is chosen apart. -/
  | fail (failure : Failure) (file : FailureFile)
  | report (findings : Findings)
  /-- One warning for each line that holds the pattern. -/
  | flag (rule : String) (text : String) (severity : Severity)

/-- A pattern and the answer to sources in which it occurs. -/
structure Rule where
  pattern : String
  response : Response

/-- Whether the pattern occurs in the source. -/
def Rule.applies (r : Rule) (source : Source) : Bool :=
  (Text.byteOffset? r.pattern.toList source.text.toList).isSome

/-- The file that a failure on `source` names. -/
def FailureFile.resolve (source : Source) : FailureFile → Option String
  | .none => Option.none
  | .named file => some file
  | .ofSource => source.name

/-- One warning for each line of the text that holds the pattern, at its first byte there. -/
def warningsOf (pattern rule text : String) (severity : Severity) (source : Source) :
    List Warning :=
  ((Text.lines source.text.toList).zipIdx 1).filterMap fun (line, number) =>
    (Text.byteOffset? pattern.toList line).map fun offset =>
      ⟨number, offset + 1, rule, severity, text⟩

/-- The findings with further warnings, each with the suppressed ones if a range covers it. -/
def addWarnings (findings : Findings) (warnings : List Warning) : Findings :=
  let (suppressed, shown) := warnings.partition fun w => findings.disabledRanges.any (·.covers w)
  { findings with
    warnings := findings.warnings ++ shown
    disabledWarnings := findings.disabledWarnings ++ suppressed }

/-- The answer of a rule. -/
def Rule.answer (r : Rule) : Engine := fun source settings =>
  match r.response with
  | .fail failure file => .error { failure with file := file.resolve source }
  | .report findings => .ok findings
  | .flag rule text severity =>
    (structural source settings).map fun findings =>
      addWarnings findings (warningsOf r.pattern rule text severity source)

/-- The engine of a list of rules. -/
def ofRules (rules : List Rule) : Engine := fun source settings =>
  match rules.find? (·.applies source) with
  | some rule => rule.answer source settings
  | none => structural source settings

end SheetLint.Engine.Scripted
