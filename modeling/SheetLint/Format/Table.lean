import SheetLint.Decimal
import SheetLint.SourceResult.Outcome
import SheetLint.Text

/-!
# The table of warnings

First the invalid options and the deprecations of all results, each text once, then one table for
each source with warnings, its rows in the order of their positions and rows of one position in
the order of the result.
-/

namespace SheetLint.Format

/-- The elements whose key differs from the keys of all earlier ones, and from those in `seen`. -/
def firstOfEach {α β : Type} [DecidableEq β] (key : α → β) (seen : List β) : List α → List α
  | [] => []
  | x :: xs =>
    if key x ∈ seen then firstOfEach key seen xs
    else x :: firstOfEach key (key x :: seen) xs

/-- A text without the end that repeats the rule. -/
def withoutRule (text rule : String) : String :=
  match Text.without? (SourceResult.ruleSuffix rule).toList text.toList with
  | some shorter => String.ofList shorter
  | none => text

/-- A number in decimal digits. -/
def number (n : Nat) : String := String.ofList (Decimal.natural n)

/-- The position of a warning. -/
def position (w : Warning) : String :=
  number w.line ++ ":" ++ number w.column

/-- Whether a warning stands at or before another one. -/
def notBehind (v w : Warning) : Bool :=
  v.line < w.line || (v.line == w.line && v.column ≤ w.column)

/-- The mark of a severity. -/
def symbol : Severity → String
  | .error => "✖"
  | .warning => "⚠"

/-- A text behind blanks that fill it up to a width. -/
def alignRight (width : Nat) (text : String) : String :=
  String.ofList (List.replicate (width - text.length) ' ') ++ text

/-- A row of a table whose positions are `width` wide. -/
def row (width : Nat) (w : Warning) : String :=
  " " ++ alignRight width (position w) ++ "  " ++ symbol w.severity ++ "  " ++
    withoutRule w.text w.rule ++ "  " ++ w.rule ++ "\n"

/-- The table of a source, or nothing when it has no warnings. -/
def sourceTable (r : SourceResult) : String :=
  if r.warnings.isEmpty then ""
  else
    let warnings := r.warnings.mergeSort notBehind
    let width := (warnings.map fun w => (position w).length).foldl max 0
    "\n" ++ r.source ++ "\n" ++ String.join (warnings.map (row width))

/-- The line of an invalid option. -/
def invalidOptionLine (o : InvalidOption) : String :=
  "Invalid Option: " ++ o.text ++ "\n"

/-- The line of a deprecation. -/
def deprecationLine (d : Deprecation) : String :=
  "Deprecation Warning: " ++ d.text ++
    (match d.reference with
    | some reference => " See: " ++ reference
    | none => "") ++ "\n"

/-- The table of all results. -/
def table (results : List SourceResult) : String :=
  String.join ((firstOfEach InvalidOption.text [] (results.flatMap (·.invalidOptions))).map
      invalidOptionLine) ++
    String.join ((firstOfEach Deprecation.text [] (results.flatMap (·.deprecations))).map
      deprecationLine) ++
    String.join (results.map sourceTable)

end SheetLint.Format
