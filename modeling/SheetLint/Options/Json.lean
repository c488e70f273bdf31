import SheetLint.Disk
import SheetLint.Json.Shaped
import SheetLint.Options

/-!
# Options in loose JSON

Options are an object with any of nineteen fields; a text of blanks and comments stands for the
object without fields.  Unknown fields are ignored.
-/

namespace SheetLint

open Json (Shaped)

instance : Shaped FilePatterns where
  schema := .textOrTexts "FilesOption"
  ofRegular?
    | .str pattern => some (.one pattern)
    | j => (Shaped.ofRegular? j).map .many

namespace RunOptions

/-- A field that may be null. -/
def maybe (schema : Json.Schema) : Json.Schema × Option Json :=
  (.optional schema, some .null)

/-- A flag that is off unless given. -/
def flagOff : Json.Schema × Option Json :=
  (.flag, some (.bool false))

/-- The fields of options, in the order in which an array lists them. -/
def schemaFields : List (String × Json.Schema × Option Json) :=
  [("cacheLocation", maybe .path), ("code", maybe .text), ("codeFilename", maybe .text),
    ("config", maybe .any), ("configBasedir", maybe .path), ("configFile", maybe .path),
    ("configOverrides", maybe .any), ("customSyntax", maybe .text),
    ("files", maybe (Shaped.schema FilePatterns)), ("fix", flagOff), ("formatter", maybe .text),
    ("ignoreDisables", flagOff), ("ignorePath", maybe .path),
    ("ignorePattern", .list .text, some (.arr [])), ("disableDefaultIgnores", flagOff),
    ("reportNeedlessDisables", flagOff), ("syntax", maybe .text), ("cache", flagOff),
    ("cwd", maybe .path)]

/-- A text or null. -/
def text? (j : Json) : Option (Option String) := Shaped.ofRegular? j

/-- Any value, null standing for none. -/
def value? : Json → Option Json
  | .null => none
  | j => some j

instance : Shaped RunOptions where
  schema := .record "StandaloneOptions" schemaFields
  ofRegular?
    | .obj [(_, cacheLocation), (_, code), (_, codeName), (_, config), (_, configBasedir),
        (_, configFile), (_, configOverrides), (_, customDialectName), (_, files), (_, .bool fix),
        (_, format), (_, .bool ignoreDisables), (_, ignorePath), (_, ignorePatterns),
        (_, .bool disableDefaultIgnores), (_, .bool reportNeedlessDisables), (_, dialectName),
        (_, .bool cache), (_, baseDir)] => do
      some {
        files := ← Shaped.ofRegular? files
        code := ← text? code
        codeName := ← text? codeName
        settings := {
          config := value? config
          configBasedir := ← text? configBasedir
          configFile := ← text? configFile
          configOverrides := value? configOverrides
          dialectName := ← text? dialectName
          customDialectName := ← text? customDialectName
          ignoreDisables := ignoreDisables
          reportNeedlessDisables := reportNeedlessDisables
          fix := fix }
        format := (← text? format).map .named
        ignorePath := ← text? ignorePath
        ignorePatterns := ← Shaped.ofRegular? ignorePatterns
        disableDefaultIgnores := disableDefaultIgnores
        cache := cache
        cacheLocation := ← text? cacheLocation
        baseDir := ← text? baseDir }
    | _ => none

/-- The options that a text of loose JSON holds. -/
def read (text : String) : Except ConfigError RunOptions :=
  match Json.Loose.parse text with
  | .error fault => .error (.malformedOptions fault)
  | .ok j =>
    match Json.decode RunOptions (j.getD (.obj [])) with
    | .error mismatch => .error (.mismatchedOptions mismatch)
    | .ok options => .ok options

/-- The options that a file holds. -/
def ofFile (d : Disk) (path : String) : Except ConfigError RunOptions :=
  match d.readText path with
  | .ok text => read text
  | .error error => .error (.unreadableOptions path error)

end RunOptions

end SheetLint
