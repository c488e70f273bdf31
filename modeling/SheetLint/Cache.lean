import SheetLint.Digest
import SheetLint.Disk
import SheetLint.SourceResult.Binary

/-!
# Stored results

A cache holds the last result of each file, together with the digest of the text it is about and
the key of the settings it was made with.  It is kept in a file between runs: `save` writes all
entries, `load` takes them back.

A cache that is switched off gives out nothing, takes in nothing and leaves its file alone.

The file begins with a byte that occurs in no UTF-8 text, so that a cache is never taken for a
stylesheet.
-/

namespace SheetLint

/-- A stored result. -/
structure CachedResult where
  /-- The digest of the text that was linted. -/
  contentDigest : String
  /-- The key of the settings. -/
  settingsKey : String
  result : SourceResult
  deriving Repr, DecidableEq

/-- Whether the result is about this text under these settings. -/
def CachedResult.isValid (e : CachedResult) (contentDigest settingsKey : String) : Bool :=
  e.contentDigest == contentDigest && e.settingsKey == settingsKey

instance : Binary CachedResult :=
  Binary.via (fun e => (e.contentDigest, e.settingsKey, e.result))
    (fun (contentDigest, settingsKey, result) => ⟨contentDigest, settingsKey, result⟩) fun _ => rfl

/-- The stored results by the path of their file. -/
structure Cache where
  /-- Where the cache is kept between runs. -/
  file : String
  entries : Keyed CachedResult := []
  isEnabled : Bool := true
  deriving Repr, DecidableEq

/-- Why a cache could not be loaded or saved. -/
inductive CacheError where
  /-- The file holds no cache. -/
  | corrupted
  | system (error : SystemError)
  deriving Repr, DecidableEq

namespace Cache

/-- The name of the file of a cache that is kept in a directory. -/
def defaultFileName : String := ".stylelintcache"

/-- The file for a location, as seen from a base directory: the location itself, or a file of its
own when the location is a directory. -/
def locate (d : Disk) (location base : String) : String :=
  let path := Path.join base location
  if d.isDir path then Path.join path defaultFileName else path

/-- A cache that is switched off. -/
def off : Cache := ⟨"", [], false⟩

/-! ## Entries -/

/-- The number of entries. -/
def size (c : Cache) : Nat := c.entries.length

/-- The entry of a file. -/
def get? (c : Cache) (path : String) : Option CachedResult :=
  if c.isEnabled then c.entries.find? path else none

/-- The entry of a file, if it is about this text under these settings. -/
def getValid? (c : Cache) (path contentDigest settingsKey : String) : Option CachedResult :=
  (c.get? path).filter (·.isValid contentDigest settingsKey)

/-- The cache with an entry for a file, in place of an earlier one. -/
def insert (c : Cache) (path : String) (entry : CachedResult) : Cache :=
  if c.isEnabled then { c with entries := c.entries.insert path entry } else c

/-- The cache without an entry for a file. -/
def erase (c : Cache) (path : String) : Cache :=
  { c with entries := c.entries.erase path }

/-- The cache without entries. -/
def clear (c : Cache) : Cache := { c with entries := [] }

/-- The cache switched off. -/
def disable (c : Cache) : Cache := { c with isEnabled := false }

/-! ## The file -/

/-- The byte that a cache file begins with. -/
def mark : UInt8 := 0xff

/-- The content of a cache file. -/
def fileContent (entries : Keyed CachedResult) : ByteArray :=
  ⟨(mark :: Binary.encode (α := List (String × CachedResult)) entries).toArray⟩

/-- The entries that a cache file holds. -/
def ofFileContent? (content : ByteArray) : Option (Keyed CachedResult) :=
  match content.data.toList with
  | [] => none
  | b :: bytes => if b = mark then Binary.decode? (List (String × CachedResult)) bytes else none

@[simp] theorem ofFileContent?_fileContent (entries : Keyed CachedResult) :
    ofFileContent? (fileContent entries) = some entries := by
  simp [ofFileContent?, fileContent]

/-- The cache with the entries of its file.  Without a file the entries stay as they are. -/
def load (c : Cache) (d : Disk) : Except CacheError Cache :=
  if !c.isEnabled || !d.pathExists c.file then .ok c
  else
    match d.read c.file with
    | .error error => .error (.system error)
    | .ok content =>
      match ofFileContent? content with
      | some entries => .ok { c with entries := entries }
      | none => .error .corrupted

/-- The disk with the directory of a file, as far as the path names one. -/
def makeDirOf (d : Disk) (file : String) : Disk.Attempt :=
  match Path.parent? file with
  | some parent => d.makeDirs parent
  | none => ⟨.ok (), d⟩

/-- Writes the file of the cache.  Directories that were made stay even if that fails. -/
def save (c : Cache) (d : Disk) : Disk.Attempt :=
  if !c.isEnabled then ⟨.ok (), d⟩
  else
    match makeDirOf d c.file with
    | ⟨.ok (), d⟩ =>
      match d.write c.file (fileContent c.entries) with
      | .ok d => ⟨.ok (), d⟩
      | .error error => ⟨.error error, d⟩
    | stopped => stopped

end Cache

end SheetLint
