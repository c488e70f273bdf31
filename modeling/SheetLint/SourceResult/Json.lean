import SheetLint.Json.Shaped
import SheetLint.SourceResult

/-!
# Results in JSON

Every record is an object with its fields in a fixed order.  A result is written without its
disabled ranges and warnings (`SourceResult.toJson`, the public form) or with them
(`SourceResult.toFullJson`, the form that is stored); the public form is the one that has a
schema.
-/

namespace SheetLint

open Json (Shaped)

/-- The severity of a name. -/
def Severity.ofName? (name : String) : Option Severity :=
  Severity.all.find? (·.name == name)

namespace Warning

/-- A warning as an object. -/
def toJson (w : Warning) : Json :=
  .obj [("line", Json.nat w.line), ("column", Json.nat w.column), ("rule", .str w.rule),
    ("severity", .str w.severity.name), ("text", .str w.text)]

/-- The shape of a warning, whose severity is an error unless given. -/
def schema : Json.Schema :=
  .record "Warning" [("line", .unsigned, none), ("column", .unsigned, none), ("rule", .text, none),
    ("severity", .oneOf (Severity.all.map Severity.name), some (.str Severity.error.name)),
    ("text", .text, none)]

instance : Shaped Warning where
  schema := schema
  ofRegular?
    | .obj [(_, .int line), (_, .int column), (_, .str rule), (_, .str severity),
        (_, .str text)] =>
      (Severity.ofName? severity).map fun s => ⟨line.toNat, column.toNat, rule, s, text⟩
    | _ => none

end Warning

namespace ParseError

/-- A parse error as an object. -/
def toJson (e : ParseError) : Json :=
  .obj [("line", Json.nat e.line), ("column", Json.nat e.column), ("text", .str e.text)]

instance : Shaped ParseError where
  schema := .record "ParseError" [("line", .unsigned, none), ("column", .unsigned, none),
    ("text", .text, none)]
  ofRegular?
    | .obj [(_, .int line), (_, .int column), (_, .str text)] =>
      some ⟨line.toNat, column.toNat, text⟩
    | _ => none

end ParseError

namespace Deprecation

/-- A deprecation as an object, without a reference when it has none. -/
def toJson (d : Deprecation) : Json :=
  .obj (("text", .str d.text) ::
    match d.reference with
    | some reference => [("reference", .str reference)]
    | none => [])

instance : Shaped Deprecation where
  schema :=
    .record "Deprecation" [("text", .text, none), ("reference", .optional .text, some .null)]
  ofRegular?
    | .obj [(_, .str text), (_, reference)] =>
      (Shaped.ofRegular? reference : Option (Option String)).map fun r => ⟨text, r⟩
    | _ => none

end Deprecation

namespace InvalidOption

/-- An invalid option as an object. -/
def toJson (o : InvalidOption) : Json :=
  .obj [("text", .str o.text)]

instance : Shaped InvalidOption where
  schema := .record "InvalidOptionWarning" [("text", .text, none)]
  ofRegular?
    | .obj [(_, .str text)] => some ⟨text⟩
    | _ => none

end InvalidOption

namespace DisabledRange

/-- A range as an object, without a last line when it is open. -/
def toJson (r : DisabledRange) : Json :=
  .obj (("rule", .str r.rule) :: ("start", Json.nat r.start) ::
    match r.last with
    | some line => [("end", Json.nat line)]
    | none => [])

instance : Shaped DisabledRange where
  schema := .record "DisableRange" [("rule", .text, none), ("start", .unsigned, none),
    ("end", .optional .unsigned, some .null)]
  ofRegular?
    | .obj [(_, .str rule), (_, .int start), (_, .null)] => some ⟨rule, start.toNat, none⟩
    | .obj [(_, .str rule), (_, .int start), (_, .int last)] =>
      some ⟨rule, start.toNat, some last.toNat⟩
    | _ => none

end DisabledRange

namespace SourceResult

/-- The fields of the public form. -/
def fields (r : SourceResult) : List (String × Json) :=
  [("source", .str r.source), ("deprecations", Json.list Deprecation.toJson r.deprecations),
    ("invalidOptionWarnings", Json.list InvalidOption.toJson r.invalidOptions),
    ("parseErrors", Json.list ParseError.toJson r.parseErrors), ("errored", .bool r.errored),
    ("warnings", Json.list Warning.toJson r.warnings)]

/-- The public form of a result. -/
def toJson (r : SourceResult) : Json := .obj r.fields

/-- A result with everything it holds. -/
def toFullJson (r : SourceResult) : Json :=
  .obj (r.fields ++ [("disabledRanges", Json.list DisabledRange.toJson r.disabledRanges),
    ("disabledWarnings", Json.list Warning.toJson r.disabledWarnings)])

/-- An empty list, the default of a field that holds a list. -/
def noItems : Option Json := some (.arr [])

instance : Shaped SourceResult where
  schema := .record "LintResult" [("source", .text, none),
    ("deprecations", Shaped.schema (List Deprecation), noItems),
    ("invalidOptionWarnings", Shaped.schema (List InvalidOption), noItems),
    ("parseErrors", Shaped.schema (List ParseError), noItems), ("errored", .flag, none),
    ("warnings", Shaped.schema (List Warning), noItems)]
  ofRegular?
    | .obj [(_, .str source), (_, deprecations), (_, invalidOptions), (_, parseErrors),
        (_, .bool errored), (_, warnings)] => do
      some {
        source := source
        deprecations := ← Shaped.ofRegular? deprecations
        invalidOptions := ← Shaped.ofRegular? invalidOptions
        parseErrors := ← Shaped.ofRegular? parseErrors
        errored := errored
        warnings := ← Shaped.ofRegular? warnings
        disabledRanges := []
        disabledWarnings := [] }
    | _ => none

end SourceResult

end SheetLint
