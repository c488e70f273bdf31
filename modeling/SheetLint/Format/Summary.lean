import SheetLint.Format.Table

/-!
# The table with a summary

The summary lists the sources and counts the warnings, by severity and by rule.  Rules stand in the
order in which they occur first.
-/

namespace SheetLint.Format

/-- A count with its noun. -/
def counted (n : Nat) (noun : String) : String :=
  number n ++ " " ++ noun ++ (if n = 1 then "" else "s")

/-- Adds one to the count of a name, or a count of one behind the others. -/
def countOne (name : String) : List (String × Nat) → List (String × Nat)
  | [] => [(name, 1)]
  | (other, n) :: rest =>
    if other = name then (other, n + 1) :: rest else (other, n) :: countOne name rest

/-- How often each name occurs, in the order of first occurrences. -/
def countEach (names : List String) : List (String × Nat) :=
  names.foldl (fun counts name => countOne name counts) []

/-- The sum of counts. -/
def totalCount (counts : List (String × Nat)) : Nat :=
  counts.foldr (fun count sum => count.2 + sum) 0

/-- The counts of one severity, or nothing when no warning has it. -/
def severitySection (warnings : List Warning) (s : Severity) : String :=
  let counts := countEach ((warnings.filter (·.severity == s)).map (·.rule))
  if counts.isEmpty then ""
  else
    " severity level \"" ++ s.name ++ "\": " ++ number (totalCount counts) ++ "\n" ++
      String.join (counts.map fun (rule, n) => "  " ++ rule ++ ": " ++ number n ++ "\n")

/-- The table of all results and the summary. -/
def summary (results : List SourceResult) : String :=
  let warnings := results.flatMap (·.warnings)
  table results ++ "\n" ++ counted results.length "source" ++ " checked\n" ++
    String.join (results.map fun r => " " ++ r.source ++ "\n") ++
    "\n" ++ counted warnings.length "problem" ++ " found\n" ++
    String.join (Severity.all.map (severitySection warnings))

end SheetLint.Format
