import SheetLint.Proofs.Cache.History
import SheetLint.Proofs.Cache.Persistence
import SheetLint.Proofs.Inputs.Resolution

/-!
# Runs that fix and the cache

A run that fixes asks its cache in vain, but stores its results under the key of the settings
without fixing (`exists_newCached?_of_fixes`).  So a later run without fixing takes them over as
they are: `run_after_fixing` says that it answers what the run that fixed has answered, and hands
nothing to the engine.

For this the later run has to find the same files with the same texts, and the entries that the run
that fixes has left: `RunOptions.FindsFixed`.

The answer is what it would be without a cache if the engine pays no attention to fixing.  For other
engines it need not be: `run_after_fixing_differs` has one that reports a finding only when it is
not told to fix.
-/

namespace SheetLint

/-- The options with fixing switched on or off. -/
def RunOptions.withFix (o : RunOptions) (fix : Bool) : RunOptions :=
  { o with settings := { o.settings with fix := fix } }

variable {engine : Engine} {settings : EngineSettings} {d d' : Disk} {o : RunOptions}

/-- **What a run that fixes stores.**  Each file that it answers is new in the cache. -/
lemma exists_newCached?_of_fixes {c : RunCache} (hfixes : c.fixes = true)
    (henabled : c.cache.isEnabled = true) {path : String} {result : SourceResult}
    (h : (lintAlone engine settings d c path).1 = .ok result) :
    ∃ text, d.readText path = .ok text ∧
      lintSource engine settings ⟨text, some path⟩ = .ok result ∧
      newCached? engine settings d c path =
        some ⟨Digest.ofString text, c.settingsKey, result⟩ := by
  -- a run that fixes gives nothing out, whatever is stored
  have hmiss (digest : String) : c.check path digest = none := by
    unfold RunCache.check
    rw [if_pos hfixes]
  unfold lintAlone lintFile at h
  unfold newCached?
  cases hread : d.readText path with
  | error error =>
    rw [hread] at h
    cases h
  | ok text =>
    simp only [hread, lintText, hmiss] at h ⊢
    refine ⟨text, rfl, ?_⟩
    cases hresult : lintSource engine settings ⟨text, some path⟩ with
    | error error =>
      rw [hresult] at h
      cases h
    | ok fresh =>
      rw [hresult] at h
      cases h
      exact ⟨rfl, if_pos henabled⟩

/-- **What is found after a run that fixes.**  Each file that it has answered is stored with its
answer. -/
lemma forall₂_find?_of_fixes {c : RunCache} (hfixes : c.fixes = true)
    (henabled : c.cache.isEnabled = true) {paths : List String} (hpaths : paths.Nodup)
    {results : List SourceResult}
    (h : (lintEach engine settings d paths ⟨c, []⟩).1 = .ok results) :
    List.Forall₂ (fun path result => ∃ text, d.readText path = .ok text ∧
      lintSource engine settings ⟨text, some path⟩ = .ok result ∧
      (lintEach engine settings d paths ⟨c, []⟩).2.cache.cache.entries.find? path =
        some ⟨Digest.ofString text, c.settingsKey, result⟩) paths results := by
  rw [lintEach_answer_eq hpaths fun path _ => .refl c path] at h
  have halone := mapM_eq_ok_iff.mp h
  have hdone : doneFiles engine settings d c paths = paths := doneFiles_eq_self fun path hpath =>
    (exists_lintAlone_eq_ok_iff engine settings d c path).mp
      (exists_mapM_eq_ok_iff.mp ⟨results, h⟩ path hpath)
  refine ((List.forall₂_and_left _ _).mpr ⟨fun _ hmem => hmem, halone⟩).imp ?_
  rintro path result ⟨hmem, hresult⟩
  obtain ⟨text, hread, hsource, hnew⟩ := exists_newCached?_of_fixes hfixes henabled hresult
  refine ⟨text, hread, hsource, ?_⟩
  rw [find?_lintEach hpaths, hdone, if_pos hmem, hnew]
  rfl

/-! ### Whole runs -/

lemma RunOptions.openCache_eq (hcache : o.cache = true) (d : Disk) :
    o.openCache d = ⟨{ file := o.cacheFile d, entries := Cache.foundIn d (o.cacheFile d) },
      o.settings.key, o.settings.fix⟩ := by
  unfold openCache
  rw [if_pos hcache, RunCache.ofFile_eq]

/-- Fixing makes no difference to what a run finds in its cache, and under which key. -/
lemma RunOptions.openCache_withFix (hcache : o.cache = true) (fix : Bool) (d : Disk) :
    (o.withFix fix).openCache d =
      ⟨{ file := o.cacheFile d, entries := Cache.foundIn d (o.cacheFile d) }, o.settings.key,
        fix⟩ :=
  openCache_eq (o := o.withFix fix) hcache d

lemma run_eq_of_resolve {patterns paths : List String} {formatter : Formatter}
    (hcheck : o.check = .ok (.files patterns, formatter))
    (hresolve : o.resolve d patterns = .ok paths) :
    run engine d o =
      ⟨(lintFiles engine o.settings d paths (o.openCache d)).answer.map
          (Outcome.ofResults formatter o.settings.reportNeedlessDisables),
        (lintFiles engine o.settings d paths (o.openCache d)).disk,
        (lintFiles engine o.settings d paths (o.openCache d)).asked⟩ := by
  unfold run
  rw [hcheck]
  simp only [lintInput_files, hresolve]

/-- **No file is linted twice.** -/
lemma RunOptions.nodup_of_resolve {patterns paths : List String}
    (h : o.resolve d patterns = .ok paths) : paths.Nodup := by
  unfold resolve at h
  obtain ⟨ignore, -, h⟩ := exists_of_bind_eq_ok h
  cases hinputs : resolveInputs d (o.baseDirIn d) o.disableDefaultIgnores patterns ignore with
  | error error =>
    rw [hinputs] at h
    exact nomatch h
  | ok files =>
    rw [hinputs] at h
    cases h
    exact nodup_of_resolveInputs hinputs

lemma lintEach_off {paths : List String} (hpaths : paths.Nodup) {results : List SourceResult}
    (h : List.Forall₂ (fun path result => ∃ text, d.readText path = .ok text ∧
      lintSource engine settings ⟨text, some path⟩ = .ok result) paths results) :
    (lintEach engine settings d paths ⟨.off, []⟩).1 = .ok results := by
  rw [lintEach_answer_eq hpaths fun path _ => .refl .off path, mapM_eq_ok_iff]
  refine h.imp ?_
  rintro path result ⟨text, hread, hsource⟩
  have hmiss : RunCache.off.check path (Digest.ofString text) = none := rfl
  simp only [lintAlone, lintFile, hread, lintText, hmiss, hsource]

/-- What a run has stored is found in its cache file, if it could be written. -/
lemma RunOptions.stores_foundIn (hd : d.HasWorkingDir) {patterns paths : List String}
    {formatter : Formatter} (hcheck : o.check = .ok (.files patterns, formatter))
    (hresolve : o.resolve d patterns = .ok paths) (hcache : o.cache = true)
    (hsave : ((lintEach engine o.settings d paths ⟨o.openCache d, []⟩).2.cache.cache.save
      d).answer = .ok ()) :
    o.Stores engine d (Cache.foundIn (run engine d o).disk (o.cacheFile d)) := by
  refine ⟨patterns, formatter, paths, hcheck, hresolve, hcache, ?_⟩
  have hopened : (o.openCache d).cache.file = o.cacheFile d ∧
      (o.openCache d).cache.isEnabled = true := by
    unfold openCache
    rw [if_pos hcache, RunCache.ofFile_eq]
    exact ⟨rfl, rfl⟩
  have hgrown := isGrownFrom_lintEach engine o.settings d (o.openCache d) paths []
  have hload := Cache.load_save hd (hgrown.isEnabled.trans hopened.2) hsave
  rw [hgrown.file, hopened.1] at hload
  rw [run_eq_of_resolve hcheck hresolve]
  show _ = Cache.foundIn (Cache.save _ d).disk _
  unfold Cache.foundIn
  rw [hload]

/-- The files of a run, found again with their texts after a run that fixes has stored results for
them. -/
structure RunOptions.FindsFixed (engine : Engine) (o : RunOptions) (d d' : Disk)
    (outcome : Outcome) : Prop where
  fixed : (run engine d (o.withFix true)).answer = .ok outcome
  stored : (o.withFix true).Stores engine d (Cache.foundIn d' (o.cacheFile d'))
  same : ∀ patterns formatter paths, o.check = .ok (.files patterns, formatter) →
    o.resolve d patterns = .ok paths →
      o.resolve d' patterns = .ok paths ∧ ∀ path ∈ paths, d'.readText path = d.readText path

/-- Each file of the later run is stored with what the engine gave when it was told to fix. -/
lemma RunOptions.FindsFixed.exists_results {outcome : Outcome}
    (h : o.FindsFixed engine d d' outcome) :
    ∃ patterns formatter paths results, o.check = .ok (.files patterns, formatter) ∧
      o.resolve d' patterns = .ok paths ∧
      outcome = Outcome.ofResults formatter o.settings.reportNeedlessDisables results ∧
      List.Forall₂ (fun path result => ∃ text, d'.readText path = .ok text ∧
        lintSource engine (o.withFix true).settings ⟨text, some path⟩ = .ok result ∧
        ((o.withFix false).openCache d').check path (Digest.ofString text) = some result)
        paths results := by
  obtain ⟨patterns, formatter, paths, hcheck, hresolve, hcache, hentries⟩ := h.stored
  obtain ⟨hresolve', htexts⟩ := h.same patterns formatter paths hcheck hresolve
  have hfixed := h.fixed
  rw [run_eq_of_resolve hcheck hresolve] at hfixed
  obtain ⟨results, hresults, rfl⟩ := exists_of_map_eq_ok hfixed
  have hopen := RunOptions.openCache_withFix (o := o) hcache
  rw [hopen] at hresults hentries
  have hfound := forall₂_find?_of_fixes rfl rfl (RunOptions.nodup_of_resolve hresolve) hresults
  rw [hentries] at hfound
  refine ⟨patterns, formatter, paths, results, hcheck, hresolve', rfl, ?_⟩
  refine ((List.forall₂_and_left _ _).mpr ⟨htexts, hfound⟩).imp ?_
  rintro path result ⟨htext, text, hread, hsource, hfind⟩
  refine ⟨text, htext.trans hread, hsource, ?_⟩
  rw [hopen]
  exact RunCache.check_of_find? rfl rfl hfind

/-- A run without fixing takes over what a run that fixes has stored. -/
lemma RunOptions.FindsFixed.run_eq {outcome : Outcome} (h : o.FindsFixed engine d d' outcome) :
    (run engine d' (o.withFix false)).answer = .ok outcome ∧
      (run engine d' (o.withFix false)).asked = [] := by
  obtain ⟨patterns, formatter, paths, results, hcheck, hresolve, rfl, hresults⟩ := h.exists_results
  have hstored := lintEach_of_stored engine (o.withFix false).settings
    (hresults.imp fun _ _ ⟨text, hread, _, hcheck⟩ => ⟨text, hread, hcheck⟩) []
  have hcheckLater : (o.withFix false).check = .ok (.files patterns, formatter) := hcheck
  have hresolveLater : (o.withFix false).resolve d' patterns = .ok paths := hresolve
  rw [run_eq_of_resolve hcheckLater hresolveLater]
  simp only [lintFiles, hstored]
  exact ⟨rfl, trivial⟩

lemma RunOptions.FindsFixed.run_off_eq {outcome : Outcome}
    (h : o.FindsFixed engine d d' outcome) (hfix : engine.IgnoresFix) :
    (run engine d' { o.withFix false with cache := false }).answer = .ok outcome := by
  obtain ⟨patterns, formatter, paths, results, hcheck, hresolve, rfl, hresults⟩ := h.exists_results
  have hsource (source : Source) : lintSource engine (o.withFix false).settings source =
      lintSource engine (o.withFix true).settings source :=
    lintSource_fix hfix (s := (o.withFix false).settings) (t := (o.withFix true).settings) rfl
      source
  have hfresh : (lintEach engine (o.withFix false).settings d' paths ⟨.off, []⟩).1 = .ok results :=
    lintEach_off (RunOptions.nodup_of_resolve hresolve)
      (hresults.imp fun path _ ⟨text, hread, hresult, _⟩ =>
        ⟨text, hread, (hsource ⟨text, some path⟩).trans hresult⟩)
  have hcheckOff : RunOptions.check { o.withFix false with cache := false } =
      .ok (.files patterns, formatter) := hcheck
  have hresolveOff : RunOptions.resolve { o.withFix false with cache := false } d' patterns =
      .ok paths := hresolve
  rw [run_eq_of_resolve hcheckOff hresolveOff]
  show Except.map _ (lintEach engine (o.withFix false).settings d' paths ⟨.off, []⟩).1 = _
  rw [hfresh]
  rfl

/-- **A run without fixing answers what the run that fixed before it has answered.**  If its cache
file holds what that run has stored, and it lints the same files with the same texts, it asks the
engine nothing.  If the engine ignores fixing, this is the answer that it would give without a
cache. -/
theorem run_after_fixing {outcome : Outcome}
    (hfixed : (run engine d (o.withFix true)).answer = .ok outcome)
    (hstored : (o.withFix true).Stores engine d (Cache.foundIn d' (o.cacheFile d')))
    (hsame : ∀ patterns formatter paths, o.check = .ok (.files patterns, formatter) →
      o.resolve d patterns = .ok paths →
        o.resolve d' patterns = .ok paths ∧ ∀ path ∈ paths, d'.readText path = d.readText path) :
    (run engine d' (o.withFix false)).answer = .ok outcome ∧
      (run engine d' (o.withFix false)).asked = [] ∧
      (engine.IgnoresFix →
        (run engine d' { o.withFix false with cache := false }).answer = .ok outcome) := by
  have h : o.FindsFixed engine d d' outcome := ⟨hfixed, hstored, hsame⟩
  exact ⟨h.run_eq.1, h.run_eq.2, h.run_off_eq⟩

/-! ### An engine that does not ignore fixing -/

/-- An engine with one finding, which it does not report when it is told to fix. -/
def Engine.fixing : Engine := fun _ settings =>
  .ok { warnings := if settings.fix then [] else [⟨1, 1, "rule", .error, "Unexpected"⟩] }

/-- The disk after a run that fixes. -/
def fixedFile : Disk := (run Engine.fixing oneFile (oneFileOptions.withFix true)).disk

lemma findsFixed_oneFile : ∃ outcome,
    oneFileOptions.FindsFixed Engine.fixing oneFile fixedFile outcome ∧
      outcome.errored = false := by
  have hpassed : (run Engine.fixing oneFile
      (oneFileOptions.withFix true)).answer.toOption.map Outcome.errored = some false := by
    decide +kernel
  obtain ⟨outcome, houtcome, herrored⟩ := Option.map_eq_some_iff.mp hpassed
  have hresolve : oneFileOptions.resolve oneFile ["a"] = .ok ["/a"] :=
    eq_ok_of_toOption (by decide +kernel)
  have hresolve' : oneFileOptions.resolve fixedFile ["a"] = .ok ["/a"] :=
    eq_ok_of_toOption (by decide +kernel)
  have htext : oneFile.readText "/a" = .ok "a{}" := eq_ok_of_toOption (by decide +kernel)
  have htext' : fixedFile.readText "/a" = .ok "a{}" := eq_ok_of_toOption (by decide +kernel)
  have hfile : oneFileOptions.cacheFile fixedFile = oneFileOptions.cacheFile oneFile := by
    decide +kernel
  refine ⟨outcome, ⟨eq_ok_of_toOption houtcome, ?_, ?_⟩, herrored⟩
  · rw [hfile]
    exact RunOptions.stores_foundIn ⟨_, rfl⟩ rfl hresolve rfl
      (eq_ok_of_toOption (by decide +kernel))
  · intro patterns formatter paths hcheck hpaths
    cases hcheck
    obtain rfl := Except.ok.inj (hresolve.symm.trans hpaths)
    refine ⟨hresolve', fun path hpath => ?_⟩
    rw [List.mem_singleton.mp hpath, htext, htext']

/-- The run that fixes reports nothing, and so does the run after it. -/
theorem run_after_fixing_oneFile :
    ∃ outcome, (run Engine.fixing oneFile (oneFileOptions.withFix true)).answer = .ok outcome ∧
      (run Engine.fixing fixedFile (oneFileOptions.withFix false)).answer = .ok outcome := by
  obtain ⟨outcome, h, -⟩ := findsFixed_oneFile
  exact ⟨outcome, h.fixed, (run_after_fixing h.fixed h.stored h.same).1⟩

/-- Without a cache the run after it reports the finding. -/
theorem run_after_fixing_differs :
    (run Engine.fixing fixedFile (oneFileOptions.withFix false)).answer ≠
      (run Engine.fixing fixedFile
        { oneFileOptions.withFix false with cache := false }).answer := by
  obtain ⟨outcome, h, hpassed⟩ := findsFixed_oneFile
  have hfresh : (run Engine.fixing fixedFile { oneFileOptions.withFix false with
      cache := false }).answer.toOption.map Outcome.errored = some true := by
    decide +kernel
  intro heq
  rw [← heq, h.run_eq.1] at hfresh
  exact nomatch hpassed.symm.trans (Option.some.inj hfresh)

end SheetLint
