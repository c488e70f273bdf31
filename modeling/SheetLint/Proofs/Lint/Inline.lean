import SheetLint.Proofs.Cache.Fixing

/-!
# Files and inline sources

A file is handed to the engine with its path for a name, and so is an inline source of that name.
Without a cache nothing else tells them apart: a run that finds one file is the run over an inline
source with the text of the file and the name of its path, results, needless ranges and errors
included (`run_files_eq_run_code`).

The two options differ in their input only, `RunOptions.withFiles` and `RunOptions.withCode`;
formatter, settings and cache are the same.

The empty pattern is the exception.  By itself it does not count as a pattern, even where it would
name a file (`run_emptyPattern_differs`).
-/

namespace SheetLint

namespace RunOptions

/-- The options with the given patterns for their input. -/
def withFiles (o : RunOptions) (patterns : FilePatterns) : RunOptions :=
  { o with files := some patterns, code := none }

/-- The options with an inline source for their input. -/
def withCode (o : RunOptions) (text name : String) : RunOptions :=
  { o with files := none, code := some text, codeName := some name }

variable {o : RunOptions}

lemma check_of_input {input : Input} (h : o.input = .ok input) :
    o.check = o.formatter.map (input, ·) := by
  unfold check
  rw [h]
  cases o.formatter <;> rfl

lemma input_withFiles {patterns : FilePatterns} (h : patterns ≠ .one "") :
    (o.withFiles patterns).input = .ok (.files patterns.toList) := by
  have hgiven : (o.withFiles patterns).givenFiles = some patterns := by
    simpa [withFiles, givenFiles] using h
  unfold input
  rw [hgiven]
  rfl

lemma input_withCode (text name : String) :
    (o.withCode text name).input = .ok (.code text (some name)) := rfl

/-- A run over files without a cache is a run over what it finds, with nothing to keep. -/
lemma lintInput_files_off (engine : Engine) {d : Disk} (hcache : o.cache = false)
    {patterns paths : List String} (hresolve : o.resolve d patterns = .ok paths) :
    lintInput engine d o (.files patterns) = lintFiles engine o.settings d paths .off := by
  have hopen : o.openCache d = .off := by
    unfold openCache
    rw [hcache]
    rfl
  rw [lintInput_files, hresolve, hopen]

end RunOptions

/-- **One file without a cache** gets the answer that its text gets under its path, and the disk
stays as it is. -/
lemma lintFiles_off_singleton (engine : Engine) (settings : EngineSettings) {d : Disk}
    {path text : String} (hread : d.readText path = .ok text) :
    lintFiles engine settings d [path] .off =
      ⟨(lintSource engine settings ⟨text, some path⟩).map ([·]), d, [⟨text, some path⟩]⟩ := by
  have hmiss : RunCache.off.check path (Digest.ofString text) = none := rfl
  unfold lintFiles lintEach lintFile
  simp only [hread, lintText, hmiss]
  cases lintSource engine settings ⟨text, some path⟩ <;> rfl

/-- **Files and inline sources agree.**  A run without a cache whose patterns find one file is the
run over an inline source that has the text of the file, and its path for a name. -/
theorem run_files_eq_run_code (engine : Engine) {d : Disk} {o : RunOptions}
    (hcache : o.cache = false) {patterns : FilePatterns} (hgiven : patterns ≠ .one "")
    {path text : String} (hresolve : o.resolve d patterns.toList = .ok [path])
    (hread : d.readText path = .ok text) :
    run engine d (o.withFiles patterns) = run engine d (o.withCode text path) := by
  have hresolveFiles : (o.withFiles patterns).resolve d patterns.toList = .ok [path] := hresolve
  have hlint : lintInput engine d (o.withFiles patterns) (.files patterns.toList) =
      lintInput engine d (o.withCode text path) (.code text (some path)) := by
    rw [RunOptions.lintInput_files_off (o := o.withFiles patterns) engine hcache hresolveFiles,
      lintFiles_off_singleton _ _ hread, lintInput_code]
    rfl
  have hformatter : (o.withFiles patterns).formatter = (o.withCode text path).formatter := rfl
  unfold run
  rw [RunOptions.check_of_input (RunOptions.input_withFiles hgiven),
    RunOptions.check_of_input (RunOptions.input_withCode text path), hformatter]
  cases (o.withCode text path).formatter with
  | error error => rfl
  | ok formatter =>
    simp only [Except.map, hlint]
    rfl

/-- A stylesheet that is found by its name. -/
theorem run_files_eq_run_code_oneFile :
    run Engine.structural oneFile (RunOptions.withFiles {} (.one "a")) =
      run Engine.structural oneFile (RunOptions.withCode {} "a\x7b\x7d" "/a") :=
  run_files_eq_run_code Engine.structural rfl (by decide)
    (eq_ok_of_toOption (by decide +kernel)) (eq_ok_of_toOption (by decide +kernel))

/-- **The empty pattern is no pattern.**  With a file for the base directory it names that file, and
yet a run with nothing but this pattern is refused, while the run over the text is not. -/
theorem run_emptyPattern_differs :
    let o : RunOptions := { baseDir := some "/a", ignorePath := some "/none" }
    (o.resolve oneFile [""]).toOption = some ["/a"] ∧
      (oneFile.readText "/a").toOption = some "a\x7b\x7d" ∧
      (run Engine.structural oneFile (o.withFiles (.one ""))).answer.toOption = none ∧
      (run Engine.structural oneFile (o.withCode "a\x7b\x7d" "/a")).answer.toOption.isSome =
        true := by
  decide +kernel

end SheetLint
