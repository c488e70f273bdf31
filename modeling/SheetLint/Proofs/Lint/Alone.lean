import Mathlib.Data.List.Nodup
import Mathlib.Data.List.TakeWhile
import Mathlib.Tactic.Lemma
import SheetLint.Lint
import SheetLint.Proofs.Keyed

/-!
# Linting one file beside others

The lint of a file asks the cache for the entry of that file and writes no other one.  So files that
are linted with one cache do not get in each other's way: `lintAlone`, the lint of a file with the
cache as it was found, is what each of them gets, whatever has happened to the others.

Two caches are compared at one file, `RunCache.AgreesAt`.  The lint of a file looks at nothing else
of its cache (`lintFile_of_agreesAt`), and changes nothing of it for other files
(`agreesAt_lintFile`).

`isFatal` and `newCached?` say without looking at a lint whether it ends the run, and which entry it
leaves.  `find?_lintEach` is what follows for a list of files: up to the first fatal one, each
leaves the entry that it would leave alone.  The files must be different; they are, as files that
are resolved are listed once.
-/

namespace SheetLint

/-! ### What a cache says about one file -/

namespace RunCache

/-- Two caches say the same about a file, for the same run. -/
structure AgreesAt (c c' : RunCache) (path : String) : Prop where
  isEnabled : c'.cache.isEnabled = c.cache.isEnabled
  settingsKey : c'.settingsKey = c.settingsKey
  fixes : c'.fixes = c.fixes
  entry : c'.cache.entries.find? path = c.cache.entries.find? path

variable {c c' c'' : RunCache} {path : String}

lemma AgreesAt.refl (c : RunCache) (path : String) : c.AgreesAt c path := ⟨rfl, rfl, rfl, rfl⟩

lemma AgreesAt.trans (h : c.AgreesAt c' path) (h' : c'.AgreesAt c'' path) : c.AgreesAt c'' path :=
  ⟨h'.isEnabled.trans h.isEnabled, h'.settingsKey.trans h.settingsKey, h'.fixes.trans h.fixes,
    h'.entry.trans h.entry⟩

lemma AgreesAt.check_eq (h : c.AgreesAt c' path) (digest : String) :
    c'.check path digest = c.check path digest := by
  unfold check Cache.getValid? Cache.get?
  rw [h.isEnabled, h.settingsKey, h.fixes, h.entry]

lemma find?_record (c : RunCache) (path digest : String) (result : SourceResult) :
    (c.record path digest result).cache.entries.find? path =
      if c.cache.isEnabled then some ⟨digest, c.settingsKey, result⟩
      else c.cache.entries.find? path := by
  unfold record Cache.insert
  split
  · exact Keyed.find?_insert_self path _ _
  · rfl

lemma check_of_find? {c : RunCache} (hfixes : c.fixes = false) (henabled : c.cache.isEnabled = true)
    {path digest : String} {result : SourceResult}
    (h : c.cache.entries.find? path = some ⟨digest, c.settingsKey, result⟩) :
    c.check path digest = some result := by
  simp [check, hfixes, Cache.getValid?, Cache.get?, henabled, h, CachedResult.isValid]

/-- Recording a result changes nothing for other files. -/
lemma agreesAt_record {other : String} (hother : other ≠ path) (digest : String)
    (result : SourceResult) : c.AgreesAt (c.record path digest result) other := by
  unfold record Cache.insert
  split
  · exact ⟨rfl, rfl, rfl, Keyed.find?_insert_of_ne hother _ _⟩
  · exact AgreesAt.refl c other

/-- What a cache still has in common with another one after results have been recorded. -/
structure IsGrownFrom (c' c : RunCache) : Prop where
  file : c'.cache.file = c.cache.file
  isEnabled : c'.cache.isEnabled = c.cache.isEnabled
  sorted : c.cache.entries.Sorted → c'.cache.entries.Sorted

lemma IsGrownFrom.refl (c : RunCache) : c.IsGrownFrom c := ⟨rfl, rfl, id⟩

lemma IsGrownFrom.record (h : c'.IsGrownFrom c) (path digest : String) (result : SourceResult) :
    (c'.record path digest result).IsGrownFrom c := by
  unfold RunCache.record Cache.insert
  split
  · exact ⟨h.file, h.isEnabled, fun hsorted => (h.sorted hsorted).insert path _⟩
  · exact h

/-- What has grown from one sorted cache is known by its entries. -/
lemma IsGrownFrom.cache_eq (h : c'.IsGrownFrom c) (h' : c''.IsGrownFrom c)
    (hsorted : c.cache.entries.Sorted)
    (hfind : ∀ path, c'.cache.entries.find? path = c''.cache.entries.find? path) :
    c'.cache = c''.cache := by
  have hentries := Keyed.ext_of_sorted (h.sorted hsorted) (h'.sorted hsorted) hfind
  calc c'.cache = ⟨c'.cache.file, c'.cache.entries, c'.cache.isEnabled⟩ := rfl
    _ = ⟨c''.cache.file, c''.cache.entries, c''.cache.isEnabled⟩ := by
      rw [h.file, h'.file, hentries, h.isEnabled, h'.isEnabled]
    _ = c''.cache := rfl

lemma AgreesAt.record (h : c.AgreesAt c' path) (digest : String) (result : SourceResult) :
    (c.record path digest result).AgreesAt (c'.record path digest result) path := by
  refine ⟨?_, h.settingsKey, h.fixes, ?_⟩
  · rw [((IsGrownFrom.refl c').record ..).isEnabled, ((IsGrownFrom.refl c).record ..).isEnabled,
      h.isEnabled]
  · rw [find?_record, find?_record, h.isEnabled, h.settingsKey, h.entry]

end RunCache

/-! ### One file -/

section

variable (engine : Engine) (settings : EngineSettings) (d : Disk) (c : RunCache)

/-- The lint of a file with nothing before it. -/
def lintAlone (path : String) : Except RunError SourceResult × LintState :=
  lintFile engine settings d path ⟨c, []⟩

/-- Whether a file ends the run.  It does when it cannot be read, and when no stored result fits and
the engine fails for a reason that is not the stylesheet's. -/
def isFatal (path : String) : Bool :=
  match d.readText path with
  | .error _ => true
  | .ok text =>
    (c.check path (Digest.ofString text)).isNone &&
      match engine ⟨text, some path⟩ settings with
      | .ok _ => false
      | .error failure => !failure.isMalformedSource

/-- The entry that the lint of a file leaves: a new one when no stored result fits and the engine
gives a result. -/
def newCached? (path : String) : Option CachedResult :=
  match d.readText path with
  | .error _ => none
  | .ok text =>
    let digest := Digest.ofString text
    match c.check path digest, lintSource engine settings ⟨text, some path⟩ with
    | none, .ok result =>
      if c.cache.isEnabled then some ⟨digest, c.settingsKey, result⟩ else none
    | _, _ => none

end

variable {engine : Engine} {settings : EngineSettings} {d : Disk} {c : RunCache}

lemma exists_lintSource_eq_error_iff (source : Source) :
    (∃ error, lintSource engine settings source = .error error) ↔
      (match engine source settings with
        | .ok _ => false
        | .error failure => !failure.isMalformedSource) = true := by
  unfold lintSource
  cases engine source settings with
  | ok findings => simp [SourceResult.ofAnswer, Except.mapError]
  | error failure =>
    simp only [SourceResult.ofAnswer, SourceResult.ofFailure]
    cases hmalformed : failure.isMalformedSource <;> simp [Except.mapError]

variable (engine settings d c) in
/-- **What ends a run.** -/
lemma exists_lintAlone_eq_error_iff (path : String) :
    (∃ error, (lintAlone engine settings d c path).1 = .error error) ↔
      isFatal engine settings d c path = true := by
  unfold lintAlone lintFile isFatal
  cases d.readText path with
  | error error => simp
  | ok text =>
    simp only [lintText]
    cases c.check path (Digest.ofString text) with
    | some result => simp
    | none =>
      simp only [Option.isNone_none, Bool.true_and]
      rw [← exists_lintSource_eq_error_iff]
      cases lintSource engine settings ⟨text, some path⟩ <;> simp

variable (engine settings d c) in
lemma exists_lintAlone_eq_ok_iff (path : String) :
    (∃ result, (lintAlone engine settings d c path).1 = .ok result) ↔
      isFatal engine settings d c path = false := by
  rw [← Bool.not_eq_true, ← exists_lintAlone_eq_error_iff]
  cases (lintAlone engine settings d c path).1 <;> simp

/-- **What a lint leaves.** -/
lemma find?_lintAlone (path : String) :
    (lintAlone engine settings d c path).2.cache.cache.entries.find? path =
      (newCached? engine settings d c path).or (c.cache.entries.find? path) := by
  unfold lintAlone lintFile newCached?
  cases d.readText path with
  | error error => rfl
  | ok text =>
    simp only [lintText]
    cases c.check path (Digest.ofString text) with
    | some result => rfl
    | none =>
      cases lintSource engine settings ⟨text, some path⟩ with
      | error error => rfl
      | ok result =>
        simp only [RunCache.find?_record]
        split <;> rfl

/-- What recordings of a file keep, its lint keeps. -/
lemma lintFile_keeps {P : RunCache → Prop} {path : String}
    (hrecord : ∀ c digest result, P c → P (c.record path digest result)) {s : LintState}
    (h : P s.cache) : P (lintFile engine settings d path s).2.cache := by
  unfold lintFile
  cases d.readText path with
  | error error => exact h
  | ok text =>
    simp only [lintText]
    cases s.cache.check path (Digest.ofString text) with
    | some result => exact h
    | none =>
      cases lintSource engine settings ⟨text, some path⟩ with
      | error error => exact h
      | ok result => exact hrecord _ _ _ h

lemma agreesAt_lintFile {path other : String} (hother : other ≠ path) (s : LintState) :
    s.cache.AgreesAt (lintFile engine settings d path s).2.cache other :=
  lintFile_keeps (P := fun c => s.cache.AgreesAt c other)
    (fun _ _ _ h => h.trans (RunCache.agreesAt_record hother _ _)) (.refl _ other)

lemma cache_lintFile_of_error {path : String} {s : LintState} {error : RunError}
    (h : (lintFile engine settings d path s).1 = .error error) :
    (lintFile engine settings d path s).2.cache = s.cache := by
  unfold lintFile at h ⊢
  cases hread : d.readText path with
  | error error => rfl
  | ok text =>
    simp only [hread, lintText] at h ⊢
    cases hcheck : s.cache.check path (Digest.ofString text) with
    | some result => rfl
    | none =>
      simp only [hcheck] at h ⊢
      cases hresult : lintSource engine settings ⟨text, some path⟩ with
      | error error => rfl
      | ok result =>
        simp only [hresult] at h
        exact nomatch h

variable (engine settings d) in
/-- **The lint of a file depends on nothing but its own entry.** -/
lemma lintFile_of_agreesAt {path : String} {s : LintState} (h : c.AgreesAt s.cache path) :
    (lintFile engine settings d path s).1 = (lintAlone engine settings d c path).1 ∧
      (lintAlone engine settings d c path).2.cache.AgreesAt
        (lintFile engine settings d path s).2.cache path := by
  unfold lintAlone lintFile
  cases d.readText path with
  | error error => exact ⟨rfl, h⟩
  | ok text =>
    simp only [lintText, h.check_eq]
    cases c.check path (Digest.ofString text) with
    | some result => exact ⟨rfl, h⟩
    | none =>
      cases lintSource engine settings ⟨text, some path⟩ with
      | error error => exact ⟨rfl, h⟩
      | ok result => exact ⟨rfl, h.record _ _⟩

/-! ### A list of files -/

/-- **What recordings keep, a run keeps.** -/
lemma lintEach_keeps {P : RunCache → Prop}
    (hrecord : ∀ c path digest result, P c → P (c.record path digest result)) (paths : List String)
    {s : LintState} (h : P s.cache) : P (lintEach engine settings d paths s).2.cache := by
  induction paths generalizing s with
  | nil => exact h
  | cons path paths ih =>
    have hfile : P (lintFile engine settings d path s).2.cache :=
      lintFile_keeps (fun c => hrecord c path) h
    rw [lintEach]
    cases hone : lintFile engine settings d path s with
    | mk answer next =>
      rw [hone] at hfile
      cases answer with
      | error error => exact hfile
      | ok result => exact ih hfile

/-- The files that a run gets done: those before the first fatal one. -/
def doneFiles (engine : Engine) (settings : EngineSettings) (d : Disk) (c : RunCache)
    (paths : List String) : List String :=
  paths.takeWhile fun path => !isFatal engine settings d c path

lemma doneFiles_cons_of_isFatal {path : String} (paths : List String)
    (h : isFatal engine settings d c path = true) :
    doneFiles engine settings d c (path :: paths) = [] := by
  simp [doneFiles, h]

lemma doneFiles_cons_of_not_isFatal {path : String} (paths : List String)
    (h : isFatal engine settings d c path = false) :
    doneFiles engine settings d c (path :: paths) =
      path :: doneFiles engine settings d c paths := by
  simp [doneFiles, h]

lemma doneFiles_eq_self {paths : List String}
    (h : ∀ path ∈ paths, isFatal engine settings d c path = false) :
    doneFiles engine settings d c paths = paths :=
  List.takeWhile_eq_self_iff.mpr fun path hpath => by rw [h path hpath]; rfl

variable (engine settings d c) in
lemma isGrownFrom_lintEach (paths : List String) (asked : List Source) :
    (lintEach engine settings d paths ⟨c, asked⟩).2.cache.IsGrownFrom c :=
  lintEach_keeps (P := fun c' => c'.IsGrownFrom c) (fun _ _ _ _ h => h.record ..) paths (.refl c)

variable (engine settings d) in
/-- How a list of files begins: with a fatal one, which ends it, or with one that is linted as if
alone and leaves the others as they were found. -/
lemma lintEach_cons_cases {path : String} {paths : List String} {s : LintState}
    (hpath : path ∉ paths) (h : ∀ p ∈ path :: paths, c.AgreesAt s.cache p) :
    (∃ error after, lintEach engine settings d (path :: paths) s = (.error error, after) ∧
      (lintAlone engine settings d c path).1 = .error error ∧
      isFatal engine settings d c path = true ∧ after.cache = s.cache) ∨
    ∃ result next, lintEach engine settings d (path :: paths) s =
        ((lintEach engine settings d paths next).1.map (result :: ·),
          (lintEach engine settings d paths next).2) ∧
      (lintAlone engine settings d c path).1 = .ok result ∧
      isFatal engine settings d c path = false ∧
      (lintAlone engine settings d c path).2.cache.AgreesAt next.cache path ∧
      (∀ other ≠ path, s.cache.AgreesAt next.cache other) ∧
      ∀ other ∈ paths, c.AgreesAt next.cache other := by
  obtain ⟨hanswer, hentry⟩ := lintFile_of_agreesAt engine settings d (h path List.mem_cons_self)
  have hothers : ∀ other ≠ path, s.cache.AgreesAt (lintFile engine settings d path s).2.cache
      other := fun other hother => agreesAt_lintFile hother s
  have hfatal := exists_lintAlone_eq_error_iff engine settings d c path
  rw [← hanswer] at hfatal ⊢
  rw [lintEach]
  cases hone : lintFile engine settings d path s with
  | mk answer next =>
    rw [hone] at hentry hothers hfatal
    cases answer with
    | error error =>
      -- a file that ends the run records nothing
      have hcache : next.cache = s.cache := by
        have hcache := cache_lintFile_of_error (congrArg Prod.fst hone)
        rwa [hone] at hcache
      exact Or.inl ⟨error, next, rfl, rfl, hfatal.mp ⟨error, rfl⟩, hcache⟩
    | ok result =>
      have hnotFatal : isFatal engine settings d c path = false := by
        rw [← Bool.not_eq_true, ← hfatal]
        rintro ⟨error, herror⟩
        exact nomatch herror
      refine Or.inr ⟨result, next, rfl, rfl, hnotFatal, hentry, hothers, ?_⟩
      intro other hmem
      have hother : other ≠ path := fun heq => hpath (heq ▸ hmem)
      exact (h other (List.mem_cons_of_mem path hmem)).trans (hothers other hother)

/-- **Each file is answered as if it had been linted alone.** -/
lemma lintEach_answer_eq {paths : List String} (hpaths : paths.Nodup) {s : LintState}
    (h : ∀ path ∈ paths, c.AgreesAt s.cache path) :
    (lintEach engine settings d paths s).1 =
      paths.mapM fun path => (lintAlone engine settings d c path).1 := by
  induction paths generalizing s with
  | nil => rfl
  | cons path paths ih =>
    obtain ⟨hpath, hpaths⟩ := List.nodup_cons.mp hpaths
    rw [List.mapM_cons]
    rcases lintEach_cons_cases engine settings d hpath h with
      ⟨error, after, hlint, halone, -⟩ | ⟨result, next, hlint, halone, -, -, -, hrest⟩
    · rw [hlint, halone]
      rfl
    · rw [hlint, halone, ih hpaths hrest]
      cases paths.mapM fun path => (lintAlone engine settings d c path).1 <;> rfl

variable (engine settings d) in
/-- **Each file that the run gets done is left as if it had been linted alone**, and for any other
file nothing changes. -/
lemma agreesAt_lintEach {paths : List String} (hpaths : paths.Nodup) {s : LintState}
    (h : ∀ path ∈ paths, c.AgreesAt s.cache path) :
    (∀ path ∈ doneFiles engine settings d c paths,
      (lintAlone engine settings d c path).2.cache.AgreesAt
        (lintEach engine settings d paths s).2.cache path) ∧
      ∀ path ∉ doneFiles engine settings d c paths,
        s.cache.AgreesAt (lintEach engine settings d paths s).2.cache path := by
  induction paths generalizing s with
  | nil => exact ⟨fun _ hpath => (nomatch hpath), fun path _ => .refl _ path⟩
  | cons path paths ih =>
    obtain ⟨hpath, hpaths⟩ := List.nodup_cons.mp hpaths
    rcases lintEach_cons_cases engine settings d hpath h with
      ⟨error, after, hlint, -, hfatal, hcache⟩ |
        ⟨result, next, hlint, -, hfatal, hentry, hothers, hrest⟩
    · rw [doneFiles_cons_of_isFatal paths hfatal, hlint]
      refine ⟨fun _ hmem => (nomatch hmem), fun other _ => ?_⟩
      show s.cache.AgreesAt after.cache other
      rw [hcache]
      exact .refl _ other
    · obtain ⟨hin, hout⟩ := ih hpaths hrest
      -- the files behind are others, so they leave the entry of this one alone
      have hlater : path ∉ doneFiles engine settings d c paths :=
        fun hmem => hpath (List.takeWhile_subset _ hmem)
      rw [doneFiles_cons_of_not_isFatal paths hfatal, hlint]
      constructor
      · intro other hmem
        rcases List.mem_cons.mp hmem with rfl | hmem
        · exact hentry.trans (hout other hlater)
        · exact hin other hmem
      · intro other hmem
        rw [List.mem_cons, not_or] at hmem
        exact (hothers other hmem.1).trans (hout other hmem.2)

/-- **The entries after a run.**  Those of the files that it gets done are new, unless a stored
result fits; all others are as they were. -/
theorem find?_lintEach {paths : List String} (hpaths : paths.Nodup) (path : String) :
    (lintEach engine settings d paths ⟨c, []⟩).2.cache.cache.entries.find? path =
      if path ∈ doneFiles engine settings d c paths then
        (newCached? engine settings d c path).or (c.cache.entries.find? path)
      else c.cache.entries.find? path := by
  obtain ⟨hin, hout⟩ := agreesAt_lintEach engine settings d hpaths (s := ⟨c, []⟩)
    fun path _ => .refl c path
  split
  · next hmem => rw [(hin path hmem).entry, find?_lintAlone]
  · next hmem => exact (hout path hmem).entry

variable (engine settings) in
/-- **Files that are all stored** are answered from the cache, and the engine is not asked. -/
lemma lintEach_of_stored {paths : List String} {results : List SourceResult}
    (h : List.Forall₂ (fun path result => ∃ text, d.readText path = .ok text ∧
      c.check path (Digest.ofString text) = some result) paths results) (asked : List Source) :
    lintEach engine settings d paths ⟨c, asked⟩ = (.ok results, ⟨c, asked⟩) := by
  induction h with
  | nil => rfl
  | @cons path result paths results hfirst _ ih =>
    obtain ⟨text, hread, hcheck⟩ := hfirst
    have hfile : lintFile engine settings d path ⟨c, asked⟩ = (.ok result, ⟨c, asked⟩) := by
      simp only [lintFile, hread, lintText, hcheck]
    rw [lintEach, hfile]
    simp only [ih]
    rfl

/-- A directory with two stylesheets. -/
def twoSheets : Disk := ⟨.dir [("a", .file "a{}".toUTF8), ("b", .file "b{}".toUTF8)], []⟩

end SheetLint
