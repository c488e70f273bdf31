import SheetLint.Disk.Walk
import SheetLint.Engine
import SheetLint.Format
import SheetLint.Ignore
import SheetLint.Json.Loose

/-!
# What ends a run

Every way in which options can be refused or a run can end without results.  A malformed stylesheet
is not among them: it becomes a result.
-/

namespace SheetLint

/-- Why options are refused. -/
inductive ConfigError where
  /-- Neither or both of files and code were given. -/
  | inputChoice
  | unknownFormat
  | unreadableOptions (path : String) (error : SystemError)
  | malformedOptions (fault : Json.Loose.Fault)
  | mismatchedOptions (mismatch : Json.Mismatch)
  | badPattern (fault : Glob.Fault)
  | badIgnoreLine (bad : BadIgnoreLine)

/-- The names of the output formats, as a message lists them. -/
def OutputFormat.listed : String :=
  ", ".intercalate (OutputFormat.all.map fun f => "'" ++ f.name ++ "'")

/-- The wording of a refusal. -/
def ConfigError.message : ConfigError → String
  | .inputChoice => "You must pass stylelint a `files` glob or a `code` string, though not both"
  | .unknownFormat =>
    "You must use a valid formatter option: " ++ OutputFormat.listed ++ ", or a function"
  | .unreadableOptions path error =>
    "Failed to read options file " ++ path ++ ": " ++ error.message
  | .malformedOptions fault => "Invalid JSON: " ++ fault.message
  | .mismatchedOptions mismatch => "Invalid options: " ++ mismatch.message
  | .badPattern fault => "Invalid pattern '" ++ fault.glob ++ "': " ++ fault.message
  | .badIgnoreLine bad =>
    "Invalid ignore pattern '" ++ bad.line ++ "': " ++ bad.fault.message

/-- Why a run ends without results. -/
inductive RunError where
  | config (error : ConfigError)
  | ignoreFile (path : String) (error : SystemError)
  | inputFile (path : String) (error : SystemError)
  | engine (failure : Failure)
  | system (error : SystemError)

/-- The wording of the end of a run. -/
def RunError.message : RunError → String
  | .config error => "Configuration error: " ++ error.message
  | .ignoreFile path error => "Failed to read ignore file " ++ path ++ ": " ++ error.message
  | .inputFile path error => "Failed to read " ++ path ++ ": " ++ error.message
  | .engine failure => "Engine error: " ++ failure.message
  | .system error => "I/O error: " ++ error.message

end SheetLint
