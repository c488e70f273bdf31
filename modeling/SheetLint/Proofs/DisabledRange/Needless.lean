import Mathlib.Data.List.Forall2
import Mathlib.Tactic.Lemma
import SheetLint.Engine.Scripted
import SheetLint.NeedlessRange
import SheetLint.SourceResult.Outcome

/-!
# Ranges that can be deleted

The ranges of a source part its raw warnings into the suppressed ones and the ones that are shown,
`split`.  A report judges each range by both kinds together, that is by all raw warnings, so a range
that it calls unused covers none of them.

Whether a warning is suppressed asks for one range that covers it, and such a range is never called
unused.  So all ranges called unused can be deleted at once, and every warning stays on its side:
`suppresses_needed`.  None of the others covers nothing.

An engine gives its warnings in an order of its own, and results sort them.  So a result is tied to
its lint up to the order of the warnings, `SourceResult.IsSplitOf`; the reports do not depend on it.
`needlessReports_of_splits` says both for the reports of any list of lints, those without ranges
left out.
-/

namespace SheetLint

/-- What a lint of a source comes to before any warning is suppressed. -/
structure RawLint where
  source : String
  warnings : List Warning
  ranges : List DisabledRange

namespace DisabledRange

/-- Whether one of the ranges covers the warning. -/
def suppresses (ranges : List DisabledRange) (w : Warning) : Bool :=
  ranges.any (·.covers w)

/-- The warnings that the ranges suppress, and the rest. -/
def split (ranges : List DisabledRange) (warnings : List Warning) : List Warning × List Warning :=
  warnings.partition (suppresses ranges)

lemma perm_of_split (ranges : List DisabledRange) (warnings : List Warning) :
    ((split ranges warnings).2 ++ (split ranges warnings).1).Perm warnings := by
  rw [split, List.partition_eq_filter_filter]
  exact List.perm_append_comm.trans (List.filter_append_perm _ warnings)

/-- **Unused ranges suppress nothing.**  The ranges that cover one of the warnings suppress the same
ones among them as all ranges do. -/
lemma suppresses_needed (ranges : List DisabledRange) {warnings : List Warning} {w : Warning}
    (hw : w ∈ warnings) :
    suppresses (ranges.filter fun r => warnings.any r.covers) w = suppresses ranges w := by
  unfold suppresses
  rw [List.any_filter]
  refine List.any_congr rfl fun r => ?_
  by_cases hcovers : r.covers w = true
  · have hany : warnings.any r.covers = true := List.any_eq_true.mpr ⟨w, hw, hcovers⟩
    rw [hcovers, hany, Bool.and_self]
  · rw [Bool.not_eq_true] at hcovers
    rw [hcovers, Bool.and_false]

lemma split_needed (ranges : List DisabledRange) (warnings : List Warning) :
    split (ranges.filter fun r => warnings.any r.covers) warnings = split ranges warnings := by
  rw [split, split, List.partition_eq_filter_filter, List.partition_eq_filter_filter]
  refine Prod.ext (List.filter_congr fun w hw => ?_) (List.filter_congr fun w hw => ?_)
  · exact suppresses_needed ranges hw
  · simp only [Function.comp, suppresses_needed ranges hw]

end DisabledRange

open DisabledRange (split)

/-- The result is that of the lint, its warnings parted by its ranges. -/
structure SourceResult.IsSplitOf (r : SourceResult) (lint : RawLint) : Prop where
  source : r.source = lint.source
  disabledRanges : r.disabledRanges = lint.ranges
  suppressed : r.disabledWarnings.Perm (split lint.ranges lint.warnings).1
  shown : r.warnings.Perm (split lint.ranges lint.warnings).2

/-- The ranges that the report does not call unused. -/
def NeedlessReport.needed (report : NeedlessReport) : List DisabledRange :=
  (report.ranges.filter (!·.unused)).map (·.range)

/-- The report judges the ranges of the lint, so that those it calls unused can be deleted together
and none of the others is idle. -/
structure NeedlessReport.Judges (report : NeedlessReport) (lint : RawLint) : Prop where
  source : report.source = lint.source
  ranges : report.ranges.map (·.range) = lint.ranges
  deletable : split report.needed lint.warnings = split lint.ranges lint.warnings
  covers : ∀ j ∈ report.ranges, j.unused = false → ∃ w ∈ lint.warnings, j.range.covers w = true

variable {r : SourceResult} {lint : RawLint}

/-- The result of a lint by an engine that hands on the warnings that no range covers. -/
def RawLint.result (lint : RawLint) : SourceResult :=
  .ofFindings lint.source
    (Engine.Scripted.addWarnings { disabledRanges := lint.ranges } lint.warnings)

lemma RawLint.isSplitOf_result (lint : RawLint) : lint.result.IsSplitOf lint :=
  ⟨rfl, rfl, .refl _, .refl _⟩

lemma SourceResult.IsSplitOf.any_allWarnings (h : r.IsSplitOf lint) (p : Warning → Bool) :
    r.allWarnings.any p = lint.warnings.any p :=
  ((h.shown.append h.suppressed).trans (DisabledRange.perm_of_split _ _)).any_eq

/-- **One report.** -/
lemma SourceResult.IsSplitOf.judges (h : r.IsSplitOf lint) :
    NeedlessReport.Judges
      ⟨r.source, r.disabledRanges.map (DisabledRange.judge r.allWarnings)⟩ lint := by
  have hjudge : DisabledRange.judge r.allWarnings =
      fun range => ⟨range, !lint.warnings.any range.covers⟩ := by
    funext range
    rw [DisabledRange.judge, h.any_allWarnings]
  rw [h.source, h.disabledRanges, hjudge]
  refine ⟨rfl, ?_, ?_, fun j hj hused => ?_⟩
  · rw [List.map_map]
    exact List.map_id lint.ranges
  · have hneeded : NeedlessReport.needed ⟨lint.source,
        lint.ranges.map fun range => ⟨range, !lint.warnings.any range.covers⟩⟩ =
          lint.ranges.filter fun range => lint.warnings.any range.covers := by
      rw [NeedlessReport.needed, List.filter_map, List.map_map]
      simp only [Function.comp_def, Bool.not_not, List.map_id']
    rw [hneeded, DisabledRange.split_needed]
  · obtain ⟨range, -, rfl⟩ := List.mem_map.mp hj
    exact List.any_eq_true.mp (by simpa using hused)

/-- **What is reported unused can be deleted.**  Sources with ranges have one report each, in their
order, which lists their ranges in order.  Without all the ranges that a report calls unused, the
raw warnings of its source are parted as before, and every other range covers one of them. -/
theorem needlessReports_of_splits {lints : List RawLint} {results : List SourceResult}
    (h : List.Forall₂ (fun lint r => r.IsSplitOf lint) lints results) :
    List.Forall₂ (fun lint report => report.Judges lint)
      (lints.filter fun lint => !lint.ranges.isEmpty) (needlessReports results) := by
  unfold needlessReports
  induction h with
  | nil => exact .nil
  | @cons lint r lints results hfirst _ ih =>
    by_cases hranges : lint.ranges.isEmpty = true
    · rw [List.filter_cons_of_neg (by simpa using hranges),
        List.filter_cons_of_neg (by simpa [hfirst.disabledRanges] using hranges)]
      exact ih
    · rw [List.filter_cons_of_pos (by simpa using hranges),
        List.filter_cons_of_pos (by simpa [hfirst.disabledRanges] using hranges)]
      exact .cons hfirst.judges ih

/-- A source without ranges. -/
def openLint : RawLint := ⟨"b.css", [⟨1, 1, "a", .error, "A"⟩], []⟩

/-- A source with a warning in two ranges at once, and with a range that covers nothing. -/
def overlappingLint : RawLint where
  source := "a.css"
  warnings := [⟨3, 1, "a", .error, "A"⟩, ⟨9, 1, "b", .warning, "B"⟩]
  ranges := [⟨"a", 1, some 4⟩, ⟨"b", 1, some 4⟩, ⟨"all", 2, some 3⟩]

/-- Both ranges around the first warning are kept, and a source without ranges has no report. -/
theorem needlessReports_of_splits_overlapping :
    List.Forall₂ (fun lint report => NeedlessReport.Judges report lint)
      ([openLint, overlappingLint].filter fun lint => !lint.ranges.isEmpty)
      (needlessReports [openLint.result, overlappingLint.result]) ∧
    needlessReports [openLint.result, overlappingLint.result] =
      [⟨"a.css", [⟨⟨"a", 1, some 4⟩, false⟩, ⟨⟨"b", 1, some 4⟩, true⟩,
        ⟨⟨"all", 2, some 3⟩, false⟩]⟩] := by
  refine ⟨?_, by decide +kernel⟩
  exact needlessReports_of_splits
    (.cons openLint.isSplitOf_result (.cons overlappingLint.isSplitOf_result .nil))

end SheetLint
