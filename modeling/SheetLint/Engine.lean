import SheetLint.Digest
import SheetLint.Json.Printer
import SheetLint.SourceResult

/-!
# Lint engines

An engine reads a source and either reports findings or fails.  A failure of the stylesheet's
own making has the discriminator `CssSyntaxError` and becomes a result; any other failure ends the
run.

An engine is a function, so that equal sources under equal settings get equal answers.  Results are
stored under a key of the settings they were made with: the digest of the settings' JSON text.
Fixing is left out of the key, so that a run that fixes leaves results which a later run without
fixing can use.
-/

namespace SheetLint

/-- A source handed to an engine. -/
structure Source where
  text : String
  /-- The path of the file, or the name given to an inline source. -/
  name : Option String
  deriving Repr, DecidableEq

/-- What an engine is told besides the source. -/
structure EngineSettings where
  config : Option Json := none
  configBasedir : Option String := none
  configFile : Option String := none
  configOverrides : Option Json := none
  /-- The name of the dialect. -/
  dialectName : Option String := none
  /-- A name that takes the place of the dialect's. -/
  customDialectName : Option String := none
  ignoreDisables : Bool := false
  reportNeedlessDisables : Bool := false
  fix : Bool := false

/-- What an engine reports on a source it could read. -/
structure Findings where
  warnings : List Warning := []
  parseErrors : List ParseError := []
  deprecations : List Deprecation := []
  invalidOptions : List InvalidOption := []
  disabledRanges : List DisabledRange := []
  /-- The warnings that a disabled range suppressed. -/
  disabledWarnings : List Warning := []
  deriving Repr, DecidableEq

/-- A failure of an engine. -/
structure Failure where
  /-- The kind of the failure. -/
  discriminator : String
  reason : String
  line : Nat
  column : Nat
  file : Option String
  deriving Repr, DecidableEq

namespace Failure

/-- The discriminator of a failure that the stylesheet is to blame for. -/
def malformedSource : String := "CssSyntaxError"

/-- Whether the stylesheet is to blame. -/
def isMalformedSource (f : Failure) : Bool :=
  f.discriminator == malformedSource

/-- The wording of a failure. -/
def message (f : Failure) : String :=
  f.discriminator ++ ": " ++ f.reason

end Failure

/-- An engine. -/
abbrev Engine := Source → EngineSettings → Except Failure Findings

/-! ## The key of settings -/

namespace EngineSettings

/-- The version that every key begins with. -/
def keyVersion : String := "0.1.0"

/-- The settings as an object. -/
def toJson (s : EngineSettings) : Json :=
  .obj [("config", s.config.getD .null), ("configBasedir", Json.optional .str s.configBasedir),
    ("configFile", Json.optional .str s.configFile),
    ("configOverrides", s.configOverrides.getD .null),
    ("syntax", Json.optional .str s.dialectName),
    ("customSyntax", Json.optional .str s.customDialectName),
    ("ignoreDisables", .bool s.ignoreDisables),
    ("reportNeedlessDisables", .bool s.reportNeedlessDisables), ("fix", .bool s.fix)]

/-- The text of which the key is the digest. -/
def keyText (s : EngineSettings) : String :=
  keyVersion ++ ":" ++ (toJson { s with fix := false }).print

/-- The key of the settings. -/
def key (s : EngineSettings) : String :=
  Digest.ofString s.keyText

end EngineSettings

end SheetLint
