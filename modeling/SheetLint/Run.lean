import SheetLint.Engine
import SheetLint.Inputs
import SheetLint.Lint
import SheetLint.NeedlessRange
import SheetLint.Options

/-!
# Runs

A run checks its options, lints what they ask for, and renders the results.  `run` is a function
from an engine, a disk and options to an answer, the disk afterwards, and the sources that were
handed to the engine.

The input and the formatter are checked before any file is read.  Inline sources are never cached.
-/

namespace SheetLint

/-- What a run produces. -/
structure Outcome where
  /-- A result fails the run. -/
  errored : Bool
  /-- The rendered results. -/
  output : String
  results : List SourceResult
  /-- The judged ranges, if the options ask for them. -/
  needless : Option (List NeedlessReport)
  deriving Repr, DecidableEq

/-- The outcome of results. -/
def Outcome.ofResults (formatter : Formatter) (reportsNeedless : Bool)
    (results : List SourceResult) : Outcome where
  errored := results.any fun r => r.errored || !r.parseErrors.isEmpty
  output := formatter.render results
  results := results
  needless := if reportsNeedless then some (needlessReports results) else none

namespace RunOptions

/-- The base directory as an absolute path. -/
def baseDirIn (o : RunOptions) (d : Disk) : String :=
  match o.baseDir with
  | some dir => Path.join d.workingDir dir
  | none => d.workingDir

/-- The input files that patterns name under these options. -/
def resolve (o : RunOptions) (d : Disk) (patterns : List String) :
    Except RunError (List String) := do
  let base := o.baseDirIn d
  let ignore ← loadIgnoreRules d base o.ignorePath o.ignorePatterns
  (resolveInputs d base o.disableDefaultIgnores patterns ignore).mapError .config

/-- The file in which results are stored. -/
def cacheFile (o : RunOptions) (d : Disk) : String :=
  Cache.locate d (o.cacheLocation.getD Cache.defaultFileName) (o.baseDirIn d)

/-- The cache with which the run begins. -/
def openCache (o : RunOptions) (d : Disk) : RunCache :=
  if o.cache then RunCache.ofFile d (o.cacheFile d) o.settings.key o.settings.fix else .off

end RunOptions

/-- The results of what the options ask to lint. -/
def lintInput (engine : Engine) (d : Disk) (o : RunOptions) : Input → LintRun (List SourceResult)
  | .code text name =>
    let source : Source := ⟨text, name⟩
    ⟨(lintSource engine o.settings source).map ([·]), d, [source]⟩
  | .files patterns =>
    match o.resolve d patterns with
    | .error error => ⟨.error error, d, []⟩
    | .ok paths => lintFiles engine o.settings d paths (o.openCache d)

/-- What the options say about the input and the formatter, or why they are refused. -/
def RunOptions.check (o : RunOptions) : Except ConfigError (Input × Formatter) := do
  let input ← o.input
  let formatter ← o.formatter
  .ok (input, formatter)

/-- A run. -/
def run (engine : Engine) (d : Disk) (o : RunOptions) : LintRun Outcome :=
  match o.check with
  | .error error => ⟨.error (.config error), d, []⟩
  | .ok (input, formatter) =>
    let r := lintInput engine d o input
    ⟨r.answer.map (Outcome.ofResults formatter o.settings.reportNeedlessDisables), r.disk, r.asked⟩

end SheetLint
