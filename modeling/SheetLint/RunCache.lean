import SheetLint.Cache

/-!
# The cache during a run

A run opens its cache once, asks it before each lint, records each new result, and writes it back
once at the end.  Nothing that happens to the cache stops a run: what cannot be loaded counts as
empty, what cannot be saved is lost.

A run that fixes asks the cache in vain, since its sources change; but the results it records are
there for later runs.
-/

namespace SheetLint

/-- A cache in the hands of a run. -/
structure RunCache where
  cache : Cache
  /-- The key of the run's settings. -/
  settingsKey : String
  /-- The run fixes. -/
  fixes : Bool
  deriving Repr, DecidableEq

namespace RunCache

/-- No cache. -/
def off : RunCache := ⟨.off, "", false⟩

/-- The cache that is kept in a file. -/
def ofFile (d : Disk) (file settingsKey : String) (fixes : Bool) : RunCache :=
  let cache : Cache := { file := file }
  match cache.load d with
  | .ok cache => ⟨cache, settingsKey, fixes⟩
  | .error _ => ⟨cache, settingsKey, fixes⟩

/-- The stored result of a file with this text. -/
def check (c : RunCache) (path contentDigest : String) : Option SourceResult :=
  if c.fixes then none
  else (c.cache.getValid? path contentDigest c.settingsKey).map CachedResult.result

/-- The cache with the new result of a file. -/
def record (c : RunCache) (path contentDigest : String) (result : SourceResult) : RunCache :=
  { c with cache := c.cache.insert path ⟨contentDigest, c.settingsKey, result⟩ }

/-- The disk once the cache has been written back. -/
def flush (c : RunCache) (d : Disk) : Disk :=
  (c.cache.save d).disk

end RunCache

end SheetLint
