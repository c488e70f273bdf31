import SheetLint.SourceResult
import SheetLint.Json.Shaped

/-!
# Disabled ranges that suppress nothing

A range is unused when it covers no warning of its source, neither one that was shown nor one that
was suppressed.
-/

namespace SheetLint

/-- A disabled range and whether it covers no warning. -/
structure JudgedRange where
  range : DisabledRange
  unused : Bool
  deriving Repr, DecidableEq

/-- The judged ranges of a source. -/
structure NeedlessReport where
  source : String
  ranges : List JudgedRange
  deriving Repr, DecidableEq

/-- All warnings of a source, the shown ones first. -/
def SourceResult.allWarnings (r : SourceResult) : List Warning :=
  r.warnings ++ r.disabledWarnings

/-- Judges a range by the warnings of its source. -/
def DisabledRange.judge (warnings : List Warning) (r : DisabledRange) : JudgedRange :=
  ⟨r, !warnings.any r.covers⟩

/-- One report for each source that has disabled ranges. -/
def needlessReports (results : List SourceResult) : List NeedlessReport :=
  (results.filter fun r => !r.disabledRanges.isEmpty).map fun r =>
    ⟨r.source, r.disabledRanges.map (DisabledRange.judge r.allWarnings)⟩

/-- A judged range as an object, an open range having null as its end. -/
def JudgedRange.toJson (j : JudgedRange) : Json :=
  .obj [("rule", .str j.range.rule), ("start", Json.nat j.range.start),
    ("end", Json.optional Json.nat j.range.last), ("unused", .bool j.unused)]

/-- A report as an object. -/
def NeedlessReport.toJson (r : NeedlessReport) : Json :=
  .obj [("source", .str r.source), ("ranges", Json.list JudgedRange.toJson r.ranges)]

end SheetLint
