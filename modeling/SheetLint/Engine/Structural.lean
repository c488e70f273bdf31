import SheetLint.Engine
import SheetLint.Path
import SheetLint.Stylesheet.Scan

/-!
# The structural engine

An engine without rules: it checks what every dialect has in common, that comments, strings and
blocks end, and reports the ranges that directives disable.  So it never reports a warning.
-/

namespace SheetLint.Engine

open Stylesheet

/-- The dialect of a source.  A custom name goes before a name, and without either the extension of
the source's name decides. -/
def dialectOf (source : Source) (settings : EngineSettings) : Except Failure Dialect :=
  match settings.customDialectName.or settings.dialectName with
  | some name =>
    match Dialect.ofName? name with
    | some d => .ok d
    | none => .error ⟨"Error", "Cannot resolve syntax \"" ++ name ++ "\"", 0, 0, source.name⟩
  | none => .ok ((source.name.map fun n => Dialect.ofExtension (Path.extension? n)).getD .css)

/-- The failure that a malformed source means. -/
def failureOf (source : Source) (m : Malformed) : Failure :=
  ⟨Failure.malformedSource, m.defect.reason, m.place.line, m.place.column, source.name⟩

/-- The engine without rules. -/
def structural : Engine := fun source settings => do
  let dialect ← dialectOf source settings
  match scan dialect source.text.toList with
  | .error m => .error (failureOf source m)
  | .ok comments =>
    .ok { disabledRanges :=
      if settings.ignoreDisables then [] else DisabledRange.ofComments comments }

end SheetLint.Engine
