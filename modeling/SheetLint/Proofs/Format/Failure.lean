import SheetLint.Proofs.Format.Sarif
import SheetLint.Proofs.Format.Summary

/-!
# How a malformed source is shown

The warning that a malformed source becomes says its rule in parentheses behind the reason, and the
formats leave such an ending out again.  Both are exact inverses, whatever the reason ends in, also
in the same words: `withoutRule_append`.  A text without the ending is shown as it is,
`withoutRule_of_forall_ne`.

So the reason itself is what the table, the summary and the log show, `ShowsReason`.  It is shown
where the source stands among the others, and what is shown of the others does not change.

`reason_shown` says so for every failure that becomes a warning and for any other results.  The text
of the log is read back only if its numbers have 32 bits, which is why the part about the log asks
for this of all results.
-/

namespace SheetLint.Format

open SourceResult

/-! ### The ending -/

/-- **The mention of a rule is added and left out again.** -/
lemma withoutRule_append (text rule : String) :
    withoutRule (text ++ " (" ++ rule ++ ")") rule = text := by
  rcases isWithoutRule_withoutRule (text ++ " (" ++ rule ++ ")") rule with hshown | ⟨-, hnone⟩
  · simpa using hshown.symm
  · exact absurd rfl (hnone text)

lemma withoutRule_of_forall_ne {text rule : String}
    (h : ∀ front, text ≠ front ++ " (" ++ rule ++ ")") : withoutRule text rule = text := by
  rcases isWithoutRule_withoutRule text rule with hshown | ⟨hsame, -⟩
  · exact absurd hshown (h _)
  · exact hsame

/-- The ending is taken off from the back: the closing parenthesis, the rule, the opening one. -/
lemma withoutRule_eq_steps (text rule : String) :
    withoutRule text rule =
      ((((Text.without? [')'] text.toList).bind (Text.without? rule.toList)).bind
        (Text.without? [' ', '('])).map String.ofList).getD text := by
  have hsuffix : (ruleSuffix rule).toList = [' ', '('] ++ (rule.toList ++ [')']) := by
    rw [ruleSuffix, String.toList_append, String.toList_append, List.append_assoc]
    rfl
  rw [withoutRule, hsuffix, Text.without?_append, Text.without?_append]
  split
  · next front hfront => rw [hfront]; rfl
  · next hnone => rw [hnone]; rfl

lemma withoutRule_failureWarning (f : Failure) :
    withoutRule (failureWarning f).text (failureWarning f).rule = f.reason := by
  have htext : (failureWarning f).text = f.reason ++ " (" ++ f.discriminator ++ ")" := by
    simp only [failureWarning, ruleSuffix, String.append_assoc]
  rw [htext]
  exact withoutRule_append _ _

/-! ### The table -/

/-- What the table shows of a malformed source. -/
def failurePart (f : Failure) : String :=
  "\n" ++ f.file.getD unnamedSource ++ "\n " ++ toString f.line ++ ":" ++ toString f.column ++
    "  ✖  " ++ f.reason ++ "  " ++ f.discriminator ++ "\n"

lemma alignRight_length (text : String) : alignRight text.length text = text := by
  rw [alignRight, Nat.sub_self, List.replicate_zero, String.ofList_nil, String.empty_append]

lemma sourceTable_of_singleton {r : SourceResult} {w : Warning} (h : r.warnings = [w]) :
    sourceTable r = "\n" ++ r.source ++ "\n " ++ placeText w ++ "  " ++ symbol w.severity ++ "  " ++
      withoutRule w.text w.rule ++ "  " ++ w.rule ++ "\n" := by
  have hrow : row (position w).length w = " " ++ placeText w ++ "  " ++ symbol w.severity ++ "  " ++
      withoutRule w.text w.rule ++ "  " ++ w.rule ++ "\n" := by
    rw [row, alignRight_length]
    rfl
  have hnewline : "\n" ++ " " = "\n " := by decide
  rw [sourceTable, h, if_neg (by simp)]
  simp only [List.mergeSort_singleton, List.map_cons, List.map_nil, List.foldl_cons, List.foldl_nil,
    Nat.zero_max, String.join_cons, String.join_nil, String.append_empty, hrow, ← hnewline,
    String.append_assoc]

/-- A result without invalid options and deprecations adds its own table, and nothing else. -/
lemma exists_table_insert {r : SourceResult} (hoptions : r.invalidOptions = [])
    (hdeprecations : r.deprecations = []) (earlier later : List SourceResult) :
    ∃ front, table (earlier ++ later) = front ++ String.join (later.map sourceTable) ∧
      table (earlier ++ r :: later) =
        front ++ sourceTable r ++ String.join (later.map sourceTable) := by
  simp only [table, List.flatMap_append, List.flatMap_cons, hoptions, hdeprecations,
    List.nil_append, List.map_append, List.map_cons, String.join_append, String.join_cons]
  exact ⟨_, (String.append_assoc ..).symm, by simp only [String.append_assoc]⟩

/-! ### All formats -/

/-- The result of a malformed source. -/
def failureResult (f : Failure) : SourceResult :=
  ofFindings (f.file.getD unnamedSource) { warnings := [failureWarning f] }

lemma sourceTable_failureResult (f : Failure) :
    sourceTable (failureResult f) = failurePart f := by
  rw [sourceTable_of_singleton (w := failureWarning f) rfl, withoutRule_failureWarning]
  simp only [failurePart, placeText, String.append_assoc]
  rfl

/-- The formats show the result of a failure with the reason of the failure, where the result stands
among the others.  The log can be read back if the numbers in it have 32 bits. -/
structure ShowsReason (f : Failure) (r : SourceResult) (earlier later : List SourceResult) :
    Prop where
  table : ∃ front, Format.table (earlier ++ later) =
      front ++ String.join (later.map sourceTable) ∧
    Format.table (earlier ++ r :: later) =
      front ++ failurePart f ++ String.join (later.map sourceTable)
  summary : ∃ back, Format.summary (earlier ++ r :: later) =
    Format.table (earlier ++ r :: later) ++ back
  log : (∀ other ∈ earlier ++ later, other.Fits) → (failureWarning f).Fits →
    ∃ log front element back, Json.parse (sarif (earlier ++ r :: later)) = .ok log ∧
      sarifResults? log = some (front ++ element :: back) ∧
      front.length = (sourcedWarnings earlier).length ∧
      IsSarifResult (f.file.getD unnamedSource) (failureWarning f) element ∧
      element.fieldAt? ["message", "text"] = some (.str f.reason)

lemma fits_insert_failureResult {f : Failure} {earlier later : List SourceResult}
    (hothers : ∀ other ∈ earlier ++ later, other.Fits) (hf : (failureWarning f).Fits) :
    ∀ r ∈ earlier ++ failureResult f :: later, r.Fits := by
  intro r hr
  rcases List.mem_append.mp hr with hearlier | hlater
  · exact hothers r (List.mem_append_left _ hearlier)
  rcases List.mem_cons.mp hlater with rfl | hlater
  · exact ⟨List.forall_mem_nil _, List.forall_mem_singleton.mpr hf⟩
  · exact hothers r (List.mem_append_right _ hlater)

lemma showsReason_failureResult (f : Failure) (earlier later : List SourceResult) :
    ShowsReason f (failureResult f) earlier later := by
  refine ⟨?_, summary_eq_table_append _, fun hothers hf => ?_⟩
  · rw [← sourceTable_failureResult]
    exact exists_table_insert rfl rfl earlier later
  · have hmessage : (sarifResult (f.file.getD unnamedSource) (failureWarning f)).sorted.fieldAt?
        ["message", "text"] = some (.str f.reason) := by
      rw [message_sorted, withoutRule_failureWarning]
    have helements := sarifResults?_sorted (earlier ++ failureResult f :: later)
    rw [List.flatMap_append, List.flatMap_cons] at helements
    refine ⟨_, _, _, _, parse_sarif (fits_insert_failureResult hothers hf), helements, ?_,
      isSarifResult_sorted _ _, hmessage⟩
    simp [sourcedWarnings, List.length_flatMap]

/-- **The reason of a malformed source is what is shown.**  It gets an ending that mentions the
rule, and the formats take off just that, from any text: three steps from the back, which together
undo the addition of the ending, and leave a text without it as it is. -/
theorem reason_shown :
    (∀ f : Failure, f.isMalformedSource = true → ∃ r, ofFailure f = .ok r ∧
      ∀ earlier later, ShowsReason f r earlier later) ∧
    (∀ text rule, withoutRule (text ++ " (" ++ rule ++ ")") rule = text) ∧
    (∀ text rule, (∀ front, text ≠ front ++ " (" ++ rule ++ ")") → withoutRule text rule = text) ∧
    ∀ text rule, withoutRule text rule =
      ((((Text.without? [')'] text.toList).bind (Text.without? rule.toList)).bind
        (Text.without? [' ', '('])).map String.ofList).getD text :=
  ⟨fun f hf => ⟨failureResult f, if_pos hf, showsReason_failureResult f⟩, withoutRule_append,
    fun _ _ => withoutRule_of_forall_ne, withoutRule_eq_steps⟩

/-- A reason that itself ends as the warning does. -/
theorem reason_shown_twice :
    let f : Failure := ⟨Failure.malformedSource, "Unclosed é (CssSyntaxError)", 3, 5, some "a.css"⟩
    f.isMalformedSource = true ∧ ∃ r, ofFailure f = .ok r ∧ ShowsReason f r [] [] ∧
      failurePart f = "\na.css\n 3:5  ✖  Unclosed é (CssSyntaxError)  CssSyntaxError\n" := by
  obtain ⟨r, hr, hshows⟩ := reason_shown.1
    ⟨Failure.malformedSource, "Unclosed é (CssSyntaxError)", 3, 5, some "a.css"⟩ rfl
  exact ⟨rfl, r, hr, hshows [] [], by decide +kernel⟩

end SheetLint.Format
