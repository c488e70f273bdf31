import SheetLint.Proofs.Disk.Footprint
import SheetLint.Proofs.Lint.Asked

/-!
# The footprint of a run

A run writes to no file but that of its cache, and makes no directory but those around it
(`touchesOnly_run`).  The cache is written last, and whatever becomes of it the answer of the run is
settled by then; what was found in it can spare the engine a source, but cannot be the reason for an
error.

Answers are compared with those of the run without a cache.  Either the cache plays no part in the
answer, or both answers are those of the same files, one looked up in the cache and the other not
(`run_withoutCache_cases`).  A file that ends the run with the cache ends it without, so a run that
has results without a cache has results with it.  And a cache in which nothing is found, be it
missing or corrupt, leaves the answer as it would be without.

Errors come from the options, from a file that cannot be read or from the engine (`error_cases`),
never from the cache.  `run_footprint` collects all of this, with one field for each part.
-/

namespace SheetLint

variable {engine : Engine} {settings : EngineSettings} {d : Disk} {o : RunOptions} {c : RunCache}

/-! ### The cache file -/

/-- **Saving a cache** touches its file and the directories around it. -/
lemma Cache.touchesOnly_save (c : Cache) (d : Disk) :
    d.TouchesOnly {dir | Path.IsAncestor dir c.file} {c.file} (c.save d).disk := by
  refine save_keeps (fun parent hparent => ?_) (fun _ made saved hmade hwrite => ?_) (.refl d _ _)
  · exact .makeDirs hparent fun dir hdir => hdir
  · exact hmade.trans (.write (Set.mem_singleton c.file) hwrite)

lemma isEnabled_lintEach_openCache (paths : List String) :
    (lintEach engine settings d paths ⟨o.openCache d, []⟩).2.cache.cache.isEnabled = o.cache := by
  rw [lintEach_isEnabled]
  cases hcache : o.cache with
  | false =>
    simp only [RunOptions.openCache, hcache]
    rfl
  | true => rw [RunOptions.openCache_eq hcache]

/-- **Linting files** touches what the cache file is. -/
lemma touchesOnly_lintFiles (engine : Engine) (d : Disk) (o : RunOptions) (paths : List String) :
    d.TouchesOnly {dir | Path.IsAncestor dir (o.cacheFile d)} {o.cacheFile d}
      (lintFiles engine o.settings d paths (o.openCache d)).disk := by
  have hfile := (isGrownFrom_lintEach engine o.settings d (o.openCache d) paths []).file
  cases hcache : o.cache with
  | false =>
    have hdisk : (lintFiles engine o.settings d paths (o.openCache d)).disk = d :=
      Cache.save_of_not_isEnabled (by rw [isEnabled_lintEach_openCache, hcache]) d
    rw [hdisk]
    exact .refl d _ _
  | true =>
    have hopened : (o.openCache d).cache.file = o.cacheFile d := by
      rw [RunOptions.openCache_eq hcache]
    rw [hopened] at hfile
    have hsaved := Cache.touchesOnly_save
      (lintEach engine o.settings d paths ⟨o.openCache d, []⟩).2.cache.cache d
    rw [hfile] at hsaved
    exact hsaved

/-! ### Answers -/

/-- An engine is to blame for each source that has no result. -/
lemma exists_failure_of_lintSource {source : Source} {error : RunError}
    (h : lintSource engine settings source = .error error) :
    ∃ failure, engine source settings = .error failure ∧ error = .engine failure := by
  unfold lintSource at h
  cases hanswer : engine source settings with
  | ok findings =>
    rw [hanswer] at h
    cases h
  | error failure =>
    rw [hanswer] at h
    simp only [SourceResult.ofAnswer, SourceResult.ofFailure] at h
    split at h
    · cases h
    · cases h
      exact ⟨failure, rfl, rfl⟩

lemma isFatal_of_isFatal_off {path : String}
    (h : isFatal engine settings d .off path = false) :
    isFatal engine settings d c path = false := by
  unfold isFatal at h ⊢
  cases hread : d.readText path with
  | error error =>
    rw [hread] at h
    exact nomatch h
  | ok text =>
    have hmiss : RunCache.off.check path (Digest.ofString text) = none := rfl
    simp only [hread, hmiss, Option.isNone_none, Bool.true_and] at h
    simp only [h, Bool.and_false]

lemma lintAlone_answer_of_miss (h : ∀ path digest, c.check path digest = none) (path : String) :
    (lintAlone engine settings d c path).1 = (lintAlone engine settings d .off path).1 := by
  have hmiss (digest : String) : RunCache.off.check path digest = none := rfl
  unfold lintAlone lintFile
  cases d.readText path with
  | error error => rfl
  | ok text =>
    simp only [lintText, h, hmiss]
    cases lintSource engine settings ⟨text, some path⟩ <;> rfl

lemma check_openCache_of_not_finds (h : ∀ entries, ¬ o.Finds d entries) (path digest : String) :
    (o.openCache d).check path digest = none := by
  have hentries : (o.openCache d).cache.entries = [] :=
    (o.openCache_entries_cases d).resolve_right (h _)
  unfold RunCache.check Cache.getValid? Cache.get?
  rw [hentries]
  simp [Keyed.find?]

/-- The options without a cache. -/
def RunOptions.withoutCache (o : RunOptions) : RunOptions := { o with cache := false }

variable (engine d o) in
/-- What a cache is to the answer of a run: nothing at all, or what its files are looked up in. -/
lemma run_withoutCache_cases :
    (run engine d o).answer = (run engine d o.withoutCache).answer ∨
    ∃ (paths : List String) (outcome : List SourceResult → Outcome),
      (run engine d o).answer = (paths.mapM fun path =>
        (lintAlone engine o.settings d (o.openCache d) path).1).map outcome ∧
      (run engine d o.withoutCache).answer = (paths.mapM fun path =>
        (lintAlone engine o.settings d .off path).1).map outcome := by
  have hcheckOff : o.withoutCache.check = o.check := rfl
  have hresolveOff (patterns : List String) :
      o.withoutCache.resolve d patterns = o.resolve d patterns := rfl
  unfold run
  rw [hcheckOff]
  cases o.check with
  | error error => exact Or.inl rfl
  | ok pair =>
    obtain ⟨input, formatter⟩ := pair
    cases input with
    | code text name => exact Or.inl rfl
    | files patterns =>
      simp only [lintInput_files, hresolveOff]
      cases hresolve : o.resolve d patterns with
      | error error => exact Or.inl rfl
      | ok paths =>
        -- files that are resolved are different, so each is linted as if alone
        have hanswer (c : RunCache) : (lintFiles engine o.settings d paths c).answer =
            paths.mapM fun path => (lintAlone engine o.settings d c path).1 :=
          lintEach_answer_eq (RunOptions.nodup_of_resolve hresolve) fun path _ => .refl c path
        refine Or.inr ⟨paths, Outcome.ofResults formatter o.settings.reportNeedlessDisables,
          ?_, ?_⟩
        · exact congrArg _ (hanswer _)
        · exact congrArg _ (hanswer .off)

/-- **What is found in a cache is no reason for an error.** -/
lemma exists_outcome_of_withoutCache {outcome : Outcome}
    (h : (run engine d o.withoutCache).answer = .ok outcome) :
    ∃ outcome', (run engine d o).answer = .ok outcome' := by
  rcases run_withoutCache_cases engine d o with hsame | ⟨paths, make, hrun, hoff⟩
  · exact ⟨outcome, hsame.trans h⟩
  · rw [hoff] at h
    obtain ⟨results, hresults, -⟩ := exists_of_map_eq_ok h
    have hanswered := exists_mapM_eq_ok_iff.mp ⟨results, hresults⟩
    obtain ⟨results', hresults'⟩ := exists_mapM_eq_ok_iff.mpr fun path hpath =>
      (exists_lintAlone_eq_ok_iff engine o.settings d (o.openCache d) path).mpr
        (isFatal_of_isFatal_off ((exists_lintAlone_eq_ok_iff _ _ _ _ path).mp
          (hanswered path hpath)))
    rw [hrun, hresults']
    exact ⟨make results', rfl⟩

/-- **A cache that is not there, or is none, makes no difference.** -/
lemma run_answer_eq_of_not_finds (h : ∀ entries, ¬ o.Finds d entries) :
    (run engine d o).answer = (run engine d o.withoutCache).answer := by
  rcases run_withoutCache_cases engine d o with hsame | ⟨paths, make, hrun, hoff⟩
  · exact hsame
  · rw [hrun, hoff]
    simp only [lintAlone_answer_of_miss (check_openCache_of_not_finds h)]

/-- **The ways in which a run can end without results.**  It ends early, a file cannot be read, or
the engine fails. -/
lemma error_cases {error : RunError} (h : (run engine d o).answer = .error error) :
    o.EndsEarly d error ∨ (∃ path e, d.readText path = .error e ∧ error = .inputFile path e) ∨
      ∃ source ∈ (run engine d o).asked, ∃ failure,
        engine source o.settings = .error failure ∧ error = .engine failure := by
  rcases settles_run engine d o with ⟨error', hearly, hrun⟩ | ⟨names, _, answer, -, hrun, hsettles⟩
  · rw [hrun] at h
    cases h
    exact Or.inl hearly
  · rw [hrun] at h
    cases answer with
    | ok results => exact nomatch h
    | error error' =>
      cases h
      rcases hsettles.failed error rfl with ⟨path, e, -, hread, rfl⟩ | ⟨source, hasked, hsource⟩
      · exact Or.inr (Or.inl ⟨path, e, hread, rfl⟩)
      · exact Or.inr (Or.inr ⟨source, hasked, exists_failure_of_lintSource hsource⟩)

/-! ### Runs -/

/-- **What a run touches.** -/
lemma touchesOnly_run (engine : Engine) (d : Disk) (o : RunOptions) :
    d.TouchesOnly {dir | Path.IsAncestor dir (o.cacheFile d)} {o.cacheFile d}
      (run engine d o).disk := by
  rcases run_cases engine d o with ⟨error, -, hrun⟩ | ⟨text, name, formatter, -, hrun⟩ |
      ⟨patterns, formatter, paths, -, -, hrun⟩ <;> rw [hrun]
  · exact .refl d _ _
  · exact .refl d _ _
  · exact touchesOnly_lintFiles engine d o paths

lemma disk_run_of_cache_off (engine : Engine) (d : Disk) (hcache : o.cache = false) :
    (run engine d o).disk = d := by
  rcases run_cases engine d o with ⟨error, -, hrun⟩ | ⟨text, name, formatter, -, hrun⟩ |
      ⟨patterns, formatter, paths, -, -, hrun⟩ <;> rw [hrun]
  exact Cache.save_of_not_isEnabled (by rw [isEnabled_lintEach_openCache, hcache]) d

/-- **The footprint of a run.**  What a run leaves alone, and what cannot end it. -/
structure HasFootprint (engine : Engine) (d : Disk) (o : RunOptions) : Prop where
  /-- Nothing is touched but the file to which the path of the cache leads, and missing directories
  around it. -/
  touches : d.TouchesOnly {dir | Path.IsAncestor dir (o.cacheFile d)} {o.cacheFile d}
    (run engine d o).disk
  /-- A path that led somewhere leads there still. -/
  leads : ∀ path place, d.LeadsTo path place → (run engine d o).disk.LeadsTo path place
  /-- A path holds what it held, unless it leads to the cache. -/
  reads : ∀ path content, d.read path = .ok content →
    (run engine d o).disk.read path = .ok content ∨
      ∃ place, (run engine d o).disk.LeadsTo path place ∧
        (run engine d o).disk.LeadsTo (o.cacheFile d) place
  off : o.cache = false → (run engine d o).disk = d
  inline : ∀ text name formatter, o.check = .ok (.code text name, formatter) →
    (run engine d o).disk = d
  /-- After an early end the disk is as it was, and the engine has not been asked. -/
  early : ∀ error, o.EndsEarly d error → run engine d o = ⟨.error error, d, []⟩
  /-- What is not an early end is not the cache's fault. -/
  late : ∀ error, (run engine d o).answer = .error error →
    o.EndsEarly d error ∨ (∃ path e, d.readText path = .error e ∧ error = .inputFile path e) ∨
      ∃ source ∈ (run engine d o).asked, ∃ failure,
        engine source o.settings = .error failure ∧ error = .engine failure
  /-- Whatever the cache file is, a run that has results without it has results. -/
  found : ∀ outcome, (run engine d o.withoutCache).answer = .ok outcome →
    ∃ outcome', (run engine d o).answer = .ok outcome'
  /-- A cache file that is missing, or holds no cache, makes no difference at all. -/
  missed : (∀ entries, ¬ o.Finds d entries) →
    (run engine d o).answer = (run engine d o.withoutCache).answer

/-- **A run touches nothing but its cache file.** -/
theorem run_footprint (engine : Engine) (d : Disk) (o : RunOptions) :
    HasFootprint engine d o where
  touches := touchesOnly_run engine d o
  leads _ _ h := h.growsTo (touchesOnly_run engine d o).growsTo
  reads path content hread := by
    refine ((touchesOnly_run engine d o).read_eq hread).imp_right ?_
    rintro ⟨file, rfl, hplace⟩
    exact hplace
  off := disk_run_of_cache_off engine d
  inline text name formatter hcheck := by
    unfold run
    rw [hcheck]
    rfl
  early _ := run_of_endsEarly engine
  late _ := error_cases
  found _ := exists_outcome_of_withoutCache
  missed := run_answer_eq_of_not_finds

/-- A directory with a stylesheet and no cache. -/
theorem run_footprint_oneFile :
    (run Engine.structural oneFile oneFileOptions.withoutCache).disk = oneFile ∧
      run Engine.structural oneFile {} = ⟨.error (.config .inputChoice), oneFile, []⟩ ∧
      (run Engine.structural oneFile oneFileOptions).answer =
        (run Engine.structural oneFile oneFileOptions.withoutCache).answer := by
  refine ⟨(run_footprint _ _ _).off rfl, (run_footprint _ _ _).early _ (.refused rfl),
    (run_footprint _ _ _).missed ?_⟩
  rintro entries ⟨-, content, hread, -⟩
  have hnone : (oneFile.read (oneFileOptions.cacheFile oneFile)).toOption = none := by
    decide +kernel
  rw [hread] at hnone
  exact nomatch hnone

end SheetLint
