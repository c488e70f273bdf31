/-!
# The switches of the command line

A switch is an option that takes a value, a flag, or a request for information.  Every switch has
a long name, some have a letter too.
-/

namespace SheetLint.CommandLine

/-- An option that takes a value. -/
inductive Setting where
  | code
  /-- The name of an inline source. -/
  | codeName
  /-- A file with options. -/
  | optionsFile
  | configFile
  | configBasedir
  | ignorePath
  | ignorePattern
  | dialect
  | customDialect
  | cacheLocation
  | format
  deriving Repr, DecidableEq

/-- An option without a value. -/
inductive Flag where
  | ignoreDisables
  | disableDefaultIgnores
  | cache
  | reportNeedlessDisables
  | fix
  | verbose
  deriving Repr, DecidableEq

/-- What an option can be. -/
inductive Switch where
  | setting (s : Setting)
  | flag (f : Flag)
  | help
  | version
  deriving Repr, DecidableEq

namespace Setting

/-- Whether the value names a path.  A path must not be empty. -/
def isPath : Setting → Bool
  | .optionsFile | .configFile | .configBasedir | .ignorePath | .cacheLocation => true
  | .code | .codeName | .ignorePattern | .dialect | .customDialect | .format => false

/-- Whether the option can be given more than once. -/
def mayRepeat (s : Setting) : Bool := s == .ignorePattern

end Setting

/-- A switch with its spellings and what the usage text says about it. -/
structure Entry where
  switch : Switch
  name : String
  letter : Option Char := none
  /-- What stands for the value of a setting. -/
  valueName : Option String := none
  purpose : String

namespace Switch

/-- All switches. -/
def table : List Entry := [
  { switch := .setting .code, name := "code", valueName := some "CODE"
    purpose := "Lint this source string instead of files" },
  { switch := .setting .codeName, name := "stdin-filename", valueName := some "NAME"
    purpose := "Label for --code or stdin input" },
  { switch := .setting .optionsFile, name := "options", valueName := some "PATH"
    purpose := "Options file (JSON or JSONC, camelCase keys); flags override it" },
  { switch := .setting .configFile, name := "config", letter := some 'c'
    valueName := some "PATH", purpose := "Engine configuration file" },
  { switch := .setting .configBasedir, name := "config-basedir", valueName := some "DIR"
    purpose := "Base directory for resolving engine configuration" },
  { switch := .setting .ignorePath, name := "ignore-path", letter := some 'i'
    valueName := some "PATH", purpose := "Ignore file (default: .stylelintignore)" },
  { switch := .setting .ignorePattern, name := "ignore-pattern", letter := some 'p'
    valueName := some "GLOB", purpose := "Extra ignore pattern, may be repeated" },
  { switch := .setting .dialect, name := "syntax", letter := some 's'
    valueName := some "SYNTAX", purpose := "Source syntax (css, scss, less, sass)" },
  { switch := .setting .customDialect, name := "custom-syntax", valueName := some "CUSTOM_SYNTAX"
    purpose := "Custom syntax module" },
  { switch := .flag .ignoreDisables, name := "ignore-disables"
    purpose := "Ignore disable comments" },
  { switch := .flag .disableDefaultIgnores, name := "disable-default-ignores"
    purpose := "Also lint node_modules and bower_components" },
  { switch := .flag .cache, name := "cache", purpose := "Skip unchanged files" },
  { switch := .setting .cacheLocation, name := "cache-location", valueName := some "PATH"
    purpose := "Cache file or directory (default: .stylelintcache)" },
  { switch := .setting .format, name := "formatter", letter := some 'f'
    valueName := some "FORMATTER", purpose := "Output format (json, string, verbose, sarif)" },
  { switch := .flag .reportNeedlessDisables, name := "report-needless-disables"
    purpose := "Report disable comments that suppressed nothing" },
  { switch := .flag .fix, name := "fix", purpose := "Auto-fix problems where possible" },
  { switch := .flag .verbose, name := "verbose", letter := some 'v'
    purpose := "Enable verbose output" },
  { switch := .help, name := "help", letter := some 'h', purpose := "Print help" },
  { switch := .version, name := "version", letter := some 'V', purpose := "Print version" }]

/-- The switch of a long name. -/
def ofName? (name : String) : Option Switch :=
  (table.find? (·.name == name)).map Entry.switch

/-- The switch of a letter. -/
def ofLetter? (letter : Char) : Option Switch :=
  (table.find? (·.letter == some letter)).map Entry.switch

end Switch

end SheetLint.CommandLine
