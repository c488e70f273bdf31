import SheetLint.CommandLine
import SheetLint.Options.Json

/-!
# From the command line to options

The options of a run are those of the options file, if one is given, with what the command line says
put on top: values replace values, flags can only be switched on, and ignore patterns are added.
Files take the place of an inline source and the other way round.
-/

namespace SheetLint.CommandLine

/-- The options with the input that the command line gives. -/
def applyInput (c : CommandLine) (o : RunOptions) : RunOptions :=
  let o := if c.files = [] then o else { o with files := some (.many c.files), code := none }
  match c.value? .code with
  | some text => { o with code := some text, files := none }
  | none => o

/-- The settings of the engine with what the command line says about them. -/
def applyEngine (c : CommandLine) (s : EngineSettings) : EngineSettings :=
  { s with
    configFile := (c.value? .configFile).or s.configFile
    configBasedir := (c.value? .configBasedir).or s.configBasedir
    dialectName := (c.value? .dialect).or s.dialectName
    customDialectName := (c.value? .customDialect).or s.customDialectName
    ignoreDisables := s.ignoreDisables || c.has .ignoreDisables
    reportNeedlessDisables := s.reportNeedlessDisables || c.has .reportNeedlessDisables
    fix := s.fix || c.has .fix }

/-- The options with what the command line says. -/
def apply (c : CommandLine) (o : RunOptions) : RunOptions :=
  { c.applyInput o with
    codeName := (c.value? .codeName).or o.codeName
    settings := c.applyEngine o.settings
    format := ((c.value? .format).map .named).or o.format
    ignorePath := (c.value? .ignorePath).or o.ignorePath
    ignorePatterns := o.ignorePatterns ++ c.values .ignorePattern
    disableDefaultIgnores := o.disableDefaultIgnores || c.has .disableDefaultIgnores
    cache := o.cache || c.has .cache
    cacheLocation := (c.value? .cacheLocation).or o.cacheLocation }

/-- The options of the options file, or else options without fields. -/
def fileOptions (c : CommandLine) (d : Disk) : Except ConfigError RunOptions :=
  match c.value? .optionsFile with
  | some path => RunOptions.ofFile d path
  | none => .ok {}

/-- The options that the command line asks for. -/
def options (c : CommandLine) (d : Disk) : Except ConfigError RunOptions :=
  (c.fileOptions d).map c.apply

end SheetLint.CommandLine
