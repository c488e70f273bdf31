import SheetLint.Disk
import SheetLint.RunCache
import SheetLint.RunError
import SheetLint.SourceResult.Outcome

/-!
# Linting sources

An inline source is handed to the engine.  A file is first looked up in the cache, by the digest of
its text; only a miss goes to the engine, and its result is recorded.  The sources that were handed
to the engine are kept, in order, as part of what a lint leaves behind.

Files are linted in the order given, up to the first one that ends the run; what was recorded until
then is written back all the same.
-/

namespace SheetLint

/-- What linting changes. -/
structure LintState where
  cache : RunCache
  /-- The sources that were handed to the engine. -/
  asked : List Source := []

/-- The result of a source, whose name is its label. -/
def lintSource (engine : Engine) (settings : EngineSettings) (source : Source) :
    Except RunError SourceResult :=
  (SourceResult.ofAnswer (source.name.getD unnamedSource) (engine source settings)).mapError
    .engine

/-- The result of a file with the given text, from the cache or from the engine. -/
def lintText (engine : Engine) (settings : EngineSettings) (path text : String) (s : LintState) :
    Except RunError SourceResult × LintState :=
  let digest := Digest.ofString text
  match s.cache.check path digest with
  | some result => (.ok result, s)
  | none =>
    let source : Source := ⟨text, some path⟩
    let asked := s.asked ++ [source]
    match lintSource engine settings source with
    | .ok result => (.ok result, ⟨s.cache.record path digest result, asked⟩)
    | .error error => (.error error, ⟨s.cache, asked⟩)

/-- The result of the file at a path. -/
def lintFile (engine : Engine) (settings : EngineSettings) (d : Disk) (path : String)
    (s : LintState) : Except RunError SourceResult × LintState :=
  match d.readText path with
  | .ok text => lintText engine settings path text s
  | .error error => (.error (.inputFile path error), s)

/-- The results of files, up to the first one without a result. -/
def lintEach (engine : Engine) (settings : EngineSettings) (d : Disk) :
    List String → LintState → Except RunError (List SourceResult) × LintState
  | [], s => (.ok [], s)
  | path :: paths, s =>
    match lintFile engine settings d path s with
    | (.error error, s) => (.error error, s)
    | (.ok result, s) =>
      let (results, s) := lintEach engine settings d paths s
      (results.map (result :: ·), s)

/-- The answer to a lint request, and what the request leaves behind. -/
structure LintRun (α : Type) where
  answer : Except RunError α
  disk : Disk
  /-- The sources that were handed to the engine. -/
  asked : List Source

/-- The results of files, the cache being written back at the end. -/
def lintFiles (engine : Engine) (settings : EngineSettings) (d : Disk) (paths : List String)
    (cache : RunCache) : LintRun (List SourceResult) :=
  let (answer, s) := lintEach engine settings d paths ⟨cache, []⟩
  ⟨answer, s.cache.flush d, s.asked⟩

end SheetLint
