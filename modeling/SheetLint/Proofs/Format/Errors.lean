import SheetLint.Format
import SheetLint.Proofs.Format.Sarif
import SheetLint.Proofs.Format.Summary
import SheetLint.Proofs.Lint.Flags

/-!
# What is shown of a failing run

A result fails the run for one of its warnings or for a parse error.  The table, the summary and the
log have an entry for every warning of every source (`Covers`), and so at least one for a result
that fails without a parse error: `covers_render`.

Each format has its own kind of entry.  In the table and in the summary, which begins with the
table, an entry is a row, and the rows of a result stand together behind its source (`tablePart`).
In the log it is an element, and the elements of a result follow each other.  `Covers` says the same
of both kinds.

Parse errors have no entries in these formats, which make the same of results with parse errors as
of results without any.  So a run can fail with nothing in the table: `not_shown_unparsed`.
-/

namespace SheetLint

open Format

/-- The part of a table that a result has, of its rows: nothing when there is none. -/
def tablePart (r : SourceResult) (rows : List String) : String :=
  if rows.isEmpty then "" else "\n" ++ r.source ++ "\n" ++ String.join rows

/-- The entries are those of a result.  Each is the entry of a warning, each warning has one, and a
result that is errored without a parse error has some. -/
structure Covers {α : Type} (isEntry : Warning → α → Prop) (r : SourceResult) (entries : List α) :
    Prop where
  warnings : ∃ shown, shown.Perm r.warnings ∧ List.Forall₂ isEntry shown entries
  errors : ∀ w ∈ r.warnings, w.severity = .error → ∃ entry ∈ entries, isEntry w entry
  errored : r.errored = true → r.parseErrors = [] → entries ≠ []

variable {r : SourceResult} {results : List SourceResult}

lemma exists_of_forall₂_of_mem {α β : Type} {R : α → β → Prop} {xs : List α} {ys : List β}
    (h : List.Forall₂ R xs ys) {x : α} (hx : x ∈ xs) : ∃ y ∈ ys, R x y := by
  induction h with
  | nil => exact nomatch hx
  | @cons x' y xs ys hfirst _ ih =>
    rcases List.mem_cons.mp hx with rfl | hx
    · exact ⟨y, List.mem_cons_self, hfirst⟩
    · obtain ⟨y', hy', hrel⟩ := ih hx
      exact ⟨y', List.mem_cons_of_mem _ hy', hrel⟩

/-- **Entries for all warnings cover the errors.**  A result that is errored without a parse error
has an error among its warnings. -/
lemma covers_of_forall₂ {α : Type} {isEntry : Warning → α → Prop} {shown : List Warning}
    {entries : List α} (hflag : r.errored = true ↔ r.HasError) (hperm : shown.Perm r.warnings)
    (h : List.Forall₂ isEntry shown entries) : Covers isEntry r entries := by
  have herrors (w : Warning) (hw : w ∈ r.warnings) : ∃ entry ∈ entries, isEntry w entry :=
    exists_of_forall₂_of_mem h (hperm.mem_iff.mpr hw)
  refine ⟨⟨shown, hperm, h⟩, fun w hw _ => herrors w hw, fun herrored hparsed => ?_⟩
  obtain ⟨w, hw, -⟩ := (hflag.mp herrored).resolve_left fun hne => hne hparsed
  obtain ⟨entry, hentry, -⟩ := herrors w hw
  exact List.ne_nil_of_mem hentry

/-! ### The table -/

/-- The rows of a result. -/
def tableRows (r : SourceResult) : List String :=
  let warnings := r.warnings.mergeSort notBehind
  warnings.map (row ((warnings.map fun w => (position w).length).foldl max 0))

lemma sourceTable_eq (r : SourceResult) : sourceTable r = tablePart r (tableRows r) := by
  have hempty : (tableRows r).isEmpty = r.warnings.isEmpty := by
    rw [tableRows, List.isEmpty_map, Bool.eq_iff_iff, List.isEmpty_iff_length_eq_zero,
      List.length_mergeSort, List.isEmpty_iff_length_eq_zero]
  rw [sourceTable, tablePart, hempty]
  rfl

lemma covers_tableRows (hflag : r.errored = true ↔ r.HasError) :
    Covers (fun w line => ∃ width, IsRow width w line) r (tableRows r) := by
  refine covers_of_forall₂ hflag (List.mergeSort_perm r.warnings notBehind) ?_
  refine List.forall₂_map_right_iff.mpr (List.forall₂_same.mpr fun w hw => ⟨_, isRow_row ?_⟩)
  exact (isWidth_foldl_max (List.ne_nil_of_mem hw)).bound w hw

/-- **The table has the parts of the results**, behind the lines in front. -/
lemma table_eq_parts (results : List SourceResult) :
    ∃ front, table results =
      front ++ String.join (List.zipWith tablePart results (results.map tableRows)) := by
  have hparts : List.zipWith tablePart results (results.map tableRows) =
      results.map sourceTable := by
    rw [List.zipWith_map_right, List.zipWith_self]
    exact List.map_congr_left fun r _ => (sourceTable_eq r).symm
  rw [hparts, table]
  exact ⟨_, rfl⟩

/-! ### All formats -/

/-- The result without its parse errors; whether it fails the run stays as it was. -/
def SourceResult.withoutParseErrors (r : SourceResult) : SourceResult :=
  { r with parseErrors := [] }

lemma table_withoutParseErrors (results : List SourceResult) :
    table (results.map .withoutParseErrors) = table results := by
  simp only [table, List.flatMap_map, List.map_map]
  rfl

lemma summary_withoutParseErrors (results : List SourceResult) :
    summary (results.map .withoutParseErrors) = summary results := by
  simp only [summary, table_withoutParseErrors, List.flatMap_map, List.map_map, List.length_map]
  rfl

lemma sarif_withoutParseErrors (results : List SourceResult) :
    sarif (results.map .withoutParseErrors) = sarif results := by
  simp only [sarif, sarifLog, List.flatMap_map]
  rfl

/-- **Errors among the warnings are visible.**  The table and the summary have rows for every
warning of every result, in the part of the result; the only run of the log has elements for them.
So a result that is errored without a parse error has at least one.  Parse errors make no
difference. -/
theorem covers_render (hfits : ∀ r ∈ results, r.Fits)
    (hflags : ∀ r ∈ results, r.errored = true ↔ r.HasError) :
    (∀ format ∈ [OutputFormat.table, .summary], ∃ front back, ∃ rows : List (List String),
      format.render results =
        front ++ String.join (List.zipWith tablePart results rows) ++ back ∧
      List.Forall₂ (Covers fun w line => ∃ width, IsRow width w line) results rows) ∧
    (∃ log, ∃ elements : List (List Json),
      Json.parse (OutputFormat.sarif.render results) = .ok log ∧
      sarifResults? log = some elements.flatten ∧
      List.Forall₂ (fun r => Covers (IsSarifResult r.source) r) results elements) ∧
    ∀ format ∈ [OutputFormat.table, .summary, .sarif],
      format.render (results.map .withoutParseErrors) = format.render results := by
  have hrows : List.Forall₂ (Covers fun w line => ∃ width, IsRow width w line) results
      (results.map tableRows) :=
    List.forall₂_map_right_iff.mpr
      (List.forall₂_same.mpr fun r hr => covers_tableRows (hflags r hr))
  -- what stands in front of the parts are the invalid options and the deprecations
  obtain ⟨front, htable⟩ := table_eq_parts results
  obtain ⟨back, hsummary⟩ := summary_eq_table_append results
  refine ⟨?_, ?_, ?_⟩
  · refine List.forall_mem_cons.mpr ⟨⟨front, "", _, ?_, hrows⟩,
      List.forall_mem_singleton.mpr ⟨front, back, _, ?_, hrows⟩⟩
    · rw [String.append_empty]
      exact htable
    · rw [← htable]
      exact hsummary
  · refine ⟨_, results.map fun r => r.warnings.map fun w => (sarifResult r.source w).sorted,
      parse_sarif hfits, ?_, ?_⟩
    · rw [sarifResults?_sorted, List.flatMap_def]
    · refine List.forall₂_map_right_iff.mpr (List.forall₂_same.mpr fun r hr => ?_)
      refine covers_of_forall₂ (hflags r hr) (List.Perm.refl _) ?_
      exact List.forall₂_map_right_iff.mpr
        (List.forall₂_same.mpr fun w _ => isSarifResult_sorted r.source w)
  · exact List.forall_mem_cons.mpr ⟨table_withoutParseErrors results,
      List.forall_mem_cons.mpr ⟨summary_withoutParseErrors results,
        List.forall_mem_singleton.mpr (sarif_withoutParseErrors results)⟩⟩

/-- A result that fails the run for a parse error only. -/
def unparsedResult : SourceResult where
  source := "a.css"
  deprecations := []
  invalidOptions := []
  parseErrors := [⟨1, 2, "Unknown word"⟩]
  errored := true
  warnings := []
  disabledRanges := []
  disabledWarnings := []

/-- A result that fails the run for one of its warnings. -/
def faultyResult : SourceResult where
  source := "b.css"
  deprecations := []
  invalidOptions := []
  parseErrors := []
  errored := true
  warnings := [⟨3, 4, "color-named", .error, "Unexpected red (color-named)"⟩]
  disabledRanges := []
  disabledWarnings := []

/-- The results of a run with both. -/
theorem covers_render_faulty :
    OutputFormat.table.render [unparsedResult, faultyResult] =
        "\nb.css\n 3:4  ✖  Unexpected red  color-named\n" ∧
      ∃ log, ∃ elements : List (List Json),
        Json.parse (OutputFormat.sarif.render [unparsedResult, faultyResult]) = .ok log ∧
        sarifResults? log = some elements.flatten ∧
        List.Forall₂ (fun r => Covers (IsSarifResult r.source) r)
          [unparsedResult, faultyResult] elements := by
  have hfits : ∀ r ∈ [unparsedResult, faultyResult], r.Fits := by
    refine List.forall_mem_cons.mpr ⟨⟨?_, ?_⟩, List.forall_mem_singleton.mpr ⟨?_, ?_⟩⟩
    · exact List.forall_mem_singleton.mpr ⟨by decide, by decide⟩
    · exact List.forall_mem_nil _
    · exact List.forall_mem_nil _
    · exact List.forall_mem_singleton.mpr ⟨by decide, by decide⟩
  have hflags : ∀ r ∈ [unparsedResult, faultyResult], r.errored = true ↔ r.HasError := by
    simp only [← SourceResult.fails_iff]
    decide
  exact ⟨by decide +kernel, (covers_render hfits hflags).2.1⟩

/-- **A parse error is not shown.**  The result fails the run, with nothing in the table, no problem
in the summary and no element in the log. -/
theorem not_shown_unparsed :
    unparsedResult.errored = true ∧ unparsedResult.HasError ∧
      OutputFormat.table.render [unparsedResult] = "" ∧
      OutputFormat.summary.render [unparsedResult] =
        "\n1 source checked\n a.css\n\n0 problems found\n" ∧
      ∃ log, Json.parse (OutputFormat.sarif.render [unparsedResult]) = .ok log ∧
        sarifResults? log = some [] := by
  have hfits : ∀ r ∈ [unparsedResult], r.Fits :=
    List.forall_mem_singleton.mpr
      ⟨List.forall_mem_singleton.mpr ⟨by decide, by decide⟩, List.forall_mem_nil _⟩
  exact ⟨rfl, Or.inl (List.cons_ne_nil _ _), by decide +kernel, by decide +kernel,
    _, parse_sarif hfits, sarifResults?_sorted [unparsedResult]⟩

end SheetLint
