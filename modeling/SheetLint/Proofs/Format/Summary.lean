import Mathlib.Algebra.BigOperators.Group.List.Lemmas
import Mathlib.Algebra.GroupWithZero.Nat
import SheetLint.Format.Summary
import SheetLint.Proofs.Format.Table

/-!
# The counts of the summary

Counting goes through the names once and adds one to the count of each.  The names that are counted
so are the distinct ones, in the order in which they occur first, each with its number of
occurrences (`countEach_eq_map`).

The summary counts the rules of the warnings of each severity, in a section of its own.
`SeveritySection.IsOf` says what a section has to show of the warnings, without saying how it is
counted.

So no warning is counted twice and none is missed: the counts of a section add up to its total, and
the totals to the number of problems, `summary_eq_sections`.  A severity without warnings has no
section, and adds nothing to the sum.
-/

namespace SheetLint.Format

/-! ### Counting names -/

lemma count_singleton_of_ne {name other : String} (h : other ≠ name) : [name].count other = 0 :=
  List.count_eq_zero.mpr fun hmem => h (List.mem_singleton.mp hmem)

/-- One more of a name that has been counted.  No other count changes, since each name has one. -/
lemma countOne_of_mem {name : String} {names : List String} (hnodup : names.Nodup)
    (hmem : name ∈ names) (count : String → ℕ) :
    countOne name (names.map fun other => (other, count other)) =
      names.map fun other => (other, count other + [name].count other) := by
  induction names with
  | nil => exact nomatch hmem
  | cons other names ih =>
    obtain ⟨hnew, hnodup⟩ := List.nodup_cons.mp hnodup
    rw [List.map_cons, List.map_cons, countOne]
    by_cases hother : other = name
    · subst hother
      have hsame : ∀ another ∈ names,
          (another, count another) = (another, count another + [other].count another) := by
        intro another hanother
        have hne : another ≠ other := fun heq => hnew (heq ▸ hanother)
        rw [count_singleton_of_ne hne, Nat.add_zero]
      rw [if_pos rfl, List.count_singleton_self, List.map_congr_left hsame]
    · rw [if_neg hother, count_singleton_of_ne hother, Nat.add_zero,
        ih hnodup ((List.mem_cons.mp hmem).resolve_left (Ne.symm hother))]

lemma countOne_of_notMem {name : String} {counts : List (String × ℕ)}
    (h : name ∉ counts.map Prod.fst) : countOne name counts = counts ++ [(name, 1)] := by
  induction counts with
  | nil => rfl
  | cons count counts ih =>
    rw [List.map_cons, List.mem_cons, not_or] at h
    rw [countOne, if_neg (Ne.symm h.1), ih h.2, List.cons_append]

/-- **Each name is counted once, with all its occurrences.**  By induction from the back, since the
counts behind a list are those behind all but its last name, with one more of that. -/
lemma countEach_eq_map (names : List String) :
    countEach names = names.eraseDups.map fun name => (name, names.count name) := by
  induction names using List.reverseRecOn with
  | nil => rfl
  | append_singleton names name ih =>
    have hcount : countEach (names ++ [name]) = countOne name (countEach names) :=
      List.foldl_concat ..
    rw [hcount, ih, List.eraseDups_append]
    simp only [List.count_append]
    by_cases hmem : name ∈ names
    · have hseen : [name].removeAll names = [] := by simp [List.removeAll, hmem]
      rw [countOne_of_mem (nodup_eraseDups names) (List.mem_eraseDups.mpr hmem), hseen,
        List.eraseDups_nil, List.append_nil]
    · have hnew : [name].removeAll names = [name] := by simp [List.removeAll, hmem]
      have hsame : ∀ other ∈ names.eraseDups,
          (other, names.count other) = (other, names.count other + [name].count other) := by
        intro other hother
        have hne : other ≠ name := fun heq => hmem (heq ▸ List.mem_eraseDups.mp hother)
        rw [count_singleton_of_ne hne, Nat.add_zero]
      rw [countOne_of_notMem (by simpa using hmem), hnew, show [name].eraseDups = [name] from rfl,
        List.map_append, List.map_congr_left hsame, List.map_singleton, List.count_eq_zero.mpr hmem,
        List.count_singleton_self, Nat.zero_add]

lemma countEach_isEmpty (names : List String) : (countEach names).isEmpty = names.isEmpty := by
  cases names with
  | nil => rfl
  | cons name names => rw [countEach_eq_map, List.eraseDups_cons, List.map_cons]; rfl

lemma totalCount_eq_sum (counts : List (String × ℕ)) :
    totalCount counts = (counts.map Prod.snd).sum := by
  induction counts with
  | nil => rfl
  | cons count counts ih => rw [List.map_cons, List.sum_cons, ← ih]; rfl

lemma totalCount_countEach (names : List String) : totalCount (countEach names) = names.length := by
  have hperm : names.eraseDups.Perm names.dedup := by
    refine (List.perm_ext_iff_of_nodup (nodup_eraseDups names) (List.nodup_dedup names)).mpr ?_
    simp
  rw [totalCount_eq_sum, countEach_eq_map, List.map_map]
  exact ((hperm.map _).sum_eq).trans (List.sum_map_count_dedup_eq_length names)

/-! ### Sections -/

/-- A section of the summary. -/
structure SeveritySection where
  severity : Severity
  total : ℕ
  /-- The rules with their counts. -/
  counts : List (String × ℕ)

namespace SeveritySection

/-- The text of a section. -/
def text (s : SeveritySection) : String :=
  " severity level \"" ++ s.severity.name ++ "\": " ++ toString s.total ++ "\n" ++
    String.join (s.counts.map fun count => "  " ++ count.1 ++ ": " ++ toString count.2 ++ "\n")

/-- The section lists each rule of the warnings of its severity once, in the order in which they
occur first, with the number of these warnings, and their sum as its total. -/
structure IsOf (s : SeveritySection) (warnings : List Warning) : Prop where
  total : s.total = (s.counts.map Prod.snd).sum
  rules : s.counts.map Prod.fst =
    ((warnings.filter fun w => w.severity = s.severity).map (·.rule)).eraseDups
  once : (s.counts.map Prod.fst).Nodup
  count : ∀ p ∈ s.counts, p.2 = warnings.countP fun w => w.severity = s.severity ∧ w.rule = p.1

/-- The section of a severity. -/
def ofSeverity (warnings : List Warning) (s : Severity) : SeveritySection :=
  let rules := (warnings.filter (·.severity == s)).map (·.rule)
  ⟨s, rules.length, countEach rules⟩

variable (warnings : List Warning) (s : Severity)

lemma isOf_ofSeverity : (ofSeverity warnings s).IsOf warnings := by
  have hrules : (ofSeverity warnings s).counts.map Prod.fst =
      ((warnings.filter fun w => w.severity = s).map (·.rule)).eraseDups := by
    rw [ofSeverity, countEach_eq_map, List.map_map]
    exact List.map_id _
  refine ⟨?_, hrules, hrules ▸ nodup_eraseDups _, fun p hp => ?_⟩
  · rw [← totalCount_eq_sum]
    exact (totalCount_countEach _).symm
  · rw [ofSeverity, countEach_eq_map] at hp
    obtain ⟨rule, -, rfl⟩ := List.mem_map.mp hp
    rw [List.count_eq_countP, List.countP_map, List.countP_filter]
    refine List.countP_congr fun w _ => ?_
    simp [ofSeverity, and_comm]

/-- Whether the severity is that of a warning. -/
def occurs : Bool := warnings.any (·.severity == s)

lemma filter_isEmpty : (warnings.filter (·.severity == s)).isEmpty = !occurs warnings s := by
  rw [occurs, Bool.eq_iff_iff]
  simp

/-- **A severity has a section if a warning has it.** -/
lemma severitySection_of_occurs (h : occurs warnings s = true) :
    severitySection warnings s = (ofSeverity warnings s).text := by
  unfold severitySection
  dsimp only
  rw [countEach_isEmpty, List.isEmpty_map, filter_isEmpty, h, totalCount_countEach,
    if_neg (by decide)]
  rfl

lemma severitySection_of_not_occurs (h : occurs warnings s = false) :
    severitySection warnings s = "" := by
  unfold severitySection
  dsimp only
  rw [countEach_isEmpty, List.isEmpty_map, filter_isEmpty, h, if_pos (by decide)]

lemma total_of_not_occurs (h : occurs warnings s = false) : (ofSeverity warnings s).total = 0 := by
  have hnil : warnings.filter (·.severity == s) = [] := by
    rw [← List.isEmpty_iff, filter_isEmpty, h, Bool.not_false]
  rw [ofSeverity, hnil]
  rfl

lemma total_error_add_total_warning :
    (ofSeverity warnings .error).total + (ofSeverity warnings .warning).total =
      warnings.length := by
  have hother : warnings.filter (·.severity == .warning) =
      warnings.filter fun w => !(w.severity == .error) :=
    List.filter_congr fun w _ => by cases w.severity <;> rfl
  simp only [ofSeverity, List.length_map]
  rw [hother]
  exact (List.length_eq_length_filter_add _).symm

/-- **The totals of the sections add up.**  A severity without a section has no warning. -/
lemma sum_total :
    (((Severity.all.filter (occurs warnings)).map (ofSeverity warnings)).map (·.total)).sum =
      warnings.length := by
  rw [← total_error_add_total_warning, List.map_map, Severity.all]
  have hzero := total_of_not_occurs warnings
  cases herror : occurs warnings .error <;> cases hwarning : occurs warnings .warning <;>
    simp [herror, hwarning, hzero]

end SeveritySection

open SeveritySection

lemma counted_problem (n : ℕ) :
    counted n "problem" = toString n ++ (if n = 1 then " problem" else " problems") := by
  rw [counted, String.append_assoc, String.append_assoc]
  split
  · exact congrArg (toString n ++ ·) (by decide)
  · exact congrArg (toString n ++ ·) (by decide)

lemma summary_eq_table_append (results : List SourceResult) :
    ∃ back, summary results = table results ++ back := by
  rw [summary]
  simp only [String.append_assoc]
  exact ⟨_, rfl⟩

/-- **The counts of the summary add up.**  The number of problems is that of the warnings of all
results, and the sum of the totals of the sections.  A severity has a section, and just one, if one
of the warnings has it. -/
theorem summary_eq_sections (results : List SourceResult) :
    ∃ (problems : ℕ) (sections : List SeveritySection),
      summary results = table results ++ "\n" ++ counted results.length "source" ++ " checked\n" ++
        String.join (results.map fun r => " " ++ r.source ++ "\n") ++ "\n" ++
        toString problems ++ (if problems = 1 then " problem" else " problems") ++ " found\n" ++
        String.join (sections.map SeveritySection.text) ∧
      problems = (results.map fun r => r.warnings.length).sum ∧
      problems = (sections.map (·.total)).sum ∧
      (sections.map (·.severity)).Sublist [.error, .warning] ∧
      (∀ s, s ∈ sections.map (·.severity) ↔ ∃ r ∈ results, ∃ w ∈ r.warnings, w.severity = s) ∧
      ∀ s ∈ sections, s.IsOf (results.flatMap (·.warnings)) := by
  let warnings := results.flatMap (·.warnings)
  let shown := Severity.all.filter (occurs warnings)
  have hseverities : (shown.map (ofSeverity warnings)).map (·.severity) = shown := by
    rw [List.map_map]
    exact List.map_id _
  refine ⟨warnings.length, shown.map (ofSeverity warnings), ?_, List.length_flatMap, ?_, ?_, ?_, ?_⟩
  -- the severities that are left out have no text
  · have hsections : String.join ((shown.map (ofSeverity warnings)).map text) =
        String.join (Severity.all.map (severitySection warnings)) := by
      rw [← join_map_filter fun s _ => severitySection_of_not_occurs warnings s, List.map_map]
      refine congrArg String.join (List.map_congr_left fun s hs => ?_)
      exact (severitySection_of_occurs warnings s (List.mem_filter.mp hs).2).symm
    rw [hsections, summary, counted_problem]
    simp only [String.append_assoc]
    rfl
  · exact (sum_total warnings).symm
  · rw [hseverities]
    exact List.filter_sublist
  · intro s
    rw [hseverities]
    have hall : s ∈ Severity.all := by cases s <;> decide
    simp [shown, hall, occurs, warnings]
  · intro s hs
    obtain ⟨severity, -, rfl⟩ := List.mem_map.mp hs
    exact isOf_ofSeverity warnings severity

end SheetLint.Format
