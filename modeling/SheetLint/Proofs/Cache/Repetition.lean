import SheetLint.Proofs.Cache.Fixing

/-!
# Runs that are repeated

A run asks the engine about each file for which its cache holds no result, once, in order:
`asked_lintEach`.  What it gets for an answer it stores (`exists_check_lintAlone`).  So the same run
again asks nothing, and answers the same: `run_twice`.

For this the files have to have the same texts again, and the cache has to be saved:
`RunOptions.IsRepeatable`.  A run itself can see to the contrary, since its cache file can be one of
its input files: `run_twice_differs`.

How often the engine is asked is known of every run, repeated or not.  It is asked about the files
without a stored result under the settings of the run (`RunOptions.isStored`), and about all of them
if the run fixes or has no cache.
-/

namespace SheetLint

variable {engine : Engine} {settings : EngineSettings} {d : Disk} {c : RunCache} {o : RunOptions}

/-! ### What is asked -/

/-- Whether a stored result is given out for a file. -/
def RunCache.hits (c : RunCache) (d : Disk) (path : String) : Bool :=
  (d.readText path).toOption.any fun text => (c.check path (Digest.ofString text)).isSome

/-- The source is what is handed to the engine for the file at a path. -/
def IsSourceOf (d : Disk) (path : String) (source : Source) : Prop :=
  d.readText path = .ok source.text ∧ source.name = some path

variable (engine settings d) in
/-- What the engine is asked about a file depends on nothing but the entry of the file. -/
lemma asked_lintFile {path : String} {s : LintState} (h : c.AgreesAt s.cache path) :
    (lintFile engine settings d path s).2.asked =
      s.asked ++ (lintAlone engine settings d c path).2.asked := by
  unfold lintAlone lintFile
  cases d.readText path with
  | error error => exact (List.append_nil _).symm
  | ok text =>
    simp only [lintText, h.check_eq]
    cases c.check path (Digest.ofString text) with
    | some result => exact (List.append_nil _).symm
    | none => cases lintSource engine settings ⟨text, some path⟩ <;> rfl

/-- **What a run asks**, if no file ends it: one file after the other, what it would ask about this
file alone. -/
lemma asked_lintEach {paths : List String} (hpaths : paths.Nodup)
    (hfatal : ∀ path ∈ paths, isFatal engine settings d c path = false) {s : LintState}
    (h : ∀ path ∈ paths, c.AgreesAt s.cache path) :
    (lintEach engine settings d paths s).2.asked =
      s.asked ++ paths.flatMap fun path => (lintAlone engine settings d c path).2.asked := by
  induction paths generalizing s with
  | nil => exact (List.append_nil _).symm
  | cons path paths ih =>
    obtain ⟨hpath, hpaths⟩ := List.nodup_cons.mp hpaths
    obtain ⟨hfirst, hrest⟩ := List.forall_mem_cons.mp h
    have hasked := asked_lintFile engine settings d hfirst
    have hanswer := (lintFile_of_agreesAt engine settings d hfirst).1
    -- the files that are left are still as they were found
    have hothers (other : String) (hother : other ∈ paths) :
        c.AgreesAt (lintFile engine settings d path s).2.cache other :=
      (hrest other hother).trans (agreesAt_lintFile (ne_of_mem_of_not_mem hother hpath) s)
    obtain ⟨result, hresult⟩ :=
      (exists_lintAlone_eq_ok_iff engine settings d c path).mpr (hfatal path List.mem_cons_self)
    rw [hresult] at hanswer
    rw [lintEach]
    cases hone : lintFile engine settings d path s with
    | mk answer next =>
      rw [hone] at hasked hanswer hothers
      obtain rfl : answer = .ok result := hanswer
      have hlater := ih hpaths (fun other hother => hfatal other (List.mem_cons_of_mem path hother))
        hothers
      rw [hasked] at hlater
      rw [List.flatMap_cons, ← List.append_assoc]
      exact hlater

lemma exists_asked_lintAlone {path : String} (hfatal : isFatal engine settings d c path = false) :
    ∃ source, IsSourceOf d path source ∧
      (lintAlone engine settings d c path).2.asked = if c.hits d path then [] else [source] := by
  unfold isFatal at hfatal
  unfold lintAlone lintFile
  cases hread : d.readText path with
  | error error =>
    rw [hread] at hfatal
    exact nomatch hfatal
  | ok text =>
    have hhits : c.hits d path = (c.check path (Digest.ofString text)).isSome := by
      rw [RunCache.hits, hread]
      rfl
    refine ⟨⟨text, some path⟩, ⟨hread, rfl⟩, ?_⟩
    simp only [lintText, hhits]
    cases c.check path (Digest.ofString text) with
    | some result => rfl
    | none => cases lintSource engine settings ⟨text, some path⟩ <;> rfl

/-- **The engine is asked once about each file for which there is no stored result**, and not about
any other. -/
lemma forall₂_asked_lintEach {paths : List String} (hpaths : paths.Nodup)
    (hfatal : ∀ path ∈ paths, isFatal engine settings d c path = false) :
    List.Forall₂ (IsSourceOf d) (paths.filter fun path => !c.hits d path)
      (lintEach engine settings d paths ⟨c, []⟩).2.asked := by
  rw [asked_lintEach hpaths hfatal fun path _ => .refl c path, List.nil_append]
  clear hpaths
  induction paths with
  | nil => exact .nil
  | cons path paths ih =>
    obtain ⟨hfirst, hrest⟩ := List.forall_mem_cons.mp hfatal
    obtain ⟨source, hsource, hasked⟩ := exists_asked_lintAlone hfirst
    rw [List.flatMap_cons, hasked]
    cases hhits : c.hits d path with
    | true => simpa [List.filter_cons, hhits] using ih hrest
    | false => simpa [List.filter_cons, hhits] using And.intro hsource (ih hrest)

/-! ### What is stored -/

variable (engine settings d c) in
lemma keeps_settings_lintEach (paths : List String) :
    (lintEach engine settings d paths ⟨c, []⟩).2.cache.settingsKey = c.settingsKey ∧
      (lintEach engine settings d paths ⟨c, []⟩).2.cache.fixes = c.fixes :=
  lintEach_keeps (P := fun c' => c'.settingsKey = c.settingsKey ∧ c'.fixes = c.fixes)
    (fun _ _ _ _ h => h) paths ⟨rfl, rfl⟩

/-- What a file is answered with is stored then, whether it was stored before or not. -/
lemma exists_check_lintAlone (hfixes : c.fixes = false) (henabled : c.cache.isEnabled = true)
    {path : String} {result : SourceResult}
    (h : (lintAlone engine settings d c path).1 = .ok result) :
    ∃ text, d.readText path = .ok text ∧
      (lintAlone engine settings d c path).2.cache.check path (Digest.ofString text) =
        some result := by
  unfold lintAlone lintFile at h ⊢
  cases hread : d.readText path with
  | error error =>
    rw [hread] at h
    cases h
  | ok text =>
    refine ⟨text, rfl, ?_⟩
    simp only [hread, lintText] at h ⊢
    cases hcheck : c.check path (Digest.ofString text) with
    | some stored =>
      rw [hcheck] at h
      cases h
      exact hcheck
    | none =>
      simp only [hcheck] at h ⊢
      cases hresult : lintSource engine settings ⟨text, some path⟩ with
      | error error =>
        rw [hresult] at h
        cases h
      | ok fresh =>
        rw [hresult] at h
        cases h
        -- What has been recorded just now is given out again.
        have hrecorded := RunCache.find?_record c path (Digest.ofString text) result
        rw [if_pos henabled] at hrecorded
        exact RunCache.check_of_find? (c := c.record path (Digest.ofString text) result) hfixes
          (((RunCache.IsGrownFrom.refl c).record ..).isEnabled.trans henabled) hrecorded

/-- **After a run that does not fix all its answers are stored.** -/
lemma forall₂_check_lintEach (hfixes : c.fixes = false) (henabled : c.cache.isEnabled = true)
    {paths : List String} (hpaths : paths.Nodup) {results : List SourceResult}
    (h : (lintEach engine settings d paths ⟨c, []⟩).1 = .ok results) :
    List.Forall₂ (fun path result => ∃ text, d.readText path = .ok text ∧
      (lintEach engine settings d paths ⟨c, []⟩).2.cache.check path (Digest.ofString text) =
        some result) paths results := by
  rw [lintEach_answer_eq hpaths fun path _ => .refl c path] at h
  have hdone : doneFiles engine settings d c paths = paths := doneFiles_eq_self fun path hpath =>
    (exists_lintAlone_eq_ok_iff engine settings d c path).mp
      (exists_mapM_eq_ok_iff.mp ⟨results, h⟩ path hpath)
  have hleft := (agreesAt_lintEach engine settings d hpaths (s := ⟨c, []⟩)
    fun path _ => .refl c path).1
  rw [hdone] at hleft
  refine ((List.forall₂_and_left _ _).mpr ⟨hleft, mapM_eq_ok_iff.mp h⟩).imp ?_
  rintro path result ⟨hagrees, hresult⟩
  obtain ⟨text, hread, hcheck⟩ := exists_check_lintAlone hfixes henabled hresult
  exact ⟨text, hread, (hagrees.check_eq _).trans hcheck⟩

/-! ### Whole runs -/

namespace RunOptions

/-- Whether there is a stored result for a file, about its text and under these settings. -/
def isStored (o : RunOptions) (d : Disk) (path : String) : Bool :=
  (d.readText path).toOption.any fun text =>
    ((Cache.foundIn d (o.cacheFile d)).find? path).any
      (·.isValid (Digest.ofString text) o.settings.key)

lemma hits_openCache (hcache : o.cache = true) (hfix : o.settings.fix = false) (path : String) :
    (o.openCache d).hits d path = o.isStored d path := by
  unfold RunCache.hits isStored
  congr 1
  funext text
  rw [openCache_eq hcache]
  simp only [RunCache.check, hfix, Bool.false_eq_true, if_false, Option.isSome_map, Cache.getValid?,
    Cache.get?, if_true, Option.isSome_filter]

lemma hits_openCache_of_bypassed (h : o.settings.fix = true ∨ o.cache = false) (path : String) :
    (o.openCache d).hits d path = false := by
  have hcheck (digest : String) : (o.openCache d).check path digest = none := by
    cases hcache : o.cache with
    | false =>
      unfold openCache
      rw [hcache]
      rfl
    | true =>
      have hfix : o.settings.fix = true := h.resolve_right (by simp [hcache])
      rw [openCache_eq hcache, RunCache.check, if_pos hfix]
  unfold RunCache.hits
  cases (d.readText path).toOption <;> simp [hcheck]

/-- A cached run whose answer is stored, and after which the same files are found with the same
texts. -/
structure IsRepeatable (engine : Engine) (o : RunOptions) (d : Disk) (patterns : List String)
    (outcome : Outcome) : Prop where
  hasWorkingDir : d.HasWorkingDir
  cache : o.cache = true
  fix : o.settings.fix = false
  answered : (run engine d o).answer = .ok outcome
  saved : ∀ paths, o.resolve d patterns = .ok paths →
    ((lintEach engine o.settings d paths ⟨o.openCache d, []⟩).2.cache.cache.save d).answer = .ok ()
  located : o.cacheFile (run engine d o).disk = o.cacheFile d
  resolved : o.resolve (run engine d o).disk patterns = o.resolve d patterns
  texts : ∀ paths, o.resolve d patterns = .ok paths →
    ∀ path ∈ paths, (run engine d o).disk.readText path = d.readText path

variable {patterns : List String} {formatter : Formatter} {outcome : Outcome}

/-- The cache that the run opens when it is repeated is the one that it has left. -/
lemma IsRepeatable.agreesAt_openCache (h : o.IsRepeatable engine d patterns outcome)
    (hcheck : o.check = .ok (.files patterns, formatter)) {paths : List String}
    (hresolve : o.resolve d patterns = .ok paths) (path : String) :
    (lintEach engine o.settings d paths ⟨o.openCache d, []⟩).2.cache.AgreesAt
      (o.openCache (run engine d o).disk) path := by
  obtain ⟨_, _, _, hcheck', hresolve', -, hentries⟩ :=
    stores_foundIn h.hasWorkingDir hcheck hresolve h.cache (h.saved paths hresolve)
  cases hcheck.symm.trans hcheck'
  cases hresolve.symm.trans hresolve'
  have hgrown := isGrownFrom_lintEach engine o.settings d (o.openCache d) paths []
  obtain ⟨hkey, hfixes⟩ := keeps_settings_lintEach engine o.settings d (o.openCache d) paths
  obtain ⟨henabled, hkeyBefore, hfixesBefore⟩ : (o.openCache d).cache.isEnabled = true ∧
      (o.openCache d).settingsKey = o.settings.key ∧ (o.openCache d).fixes = o.settings.fix := by
    rw [openCache_eq h.cache]
    exact ⟨rfl, rfl, rfl⟩
  rw [openCache_eq h.cache (run engine d o).disk, h.located]
  refine ⟨(hgrown.isEnabled.trans henabled).symm, (hkey.trans hkeyBefore).symm,
    (hfixes.trans hfixesBefore).symm, ?_⟩
  rw [hentries]

/-- **A repeated run takes its answer from the cache.** -/
lemma IsRepeatable.run_eq (h : o.IsRepeatable engine d patterns outcome)
    (hcheck : o.check = .ok (.files patterns, formatter)) :
    (run engine (run engine d o).disk o).answer = .ok outcome ∧
      (run engine (run engine d o).disk o).asked = [] := by
  have hanswered := h.answered
  obtain ⟨paths, hresolve⟩ : ∃ paths, o.resolve d patterns = .ok paths := by
    cases hresolve : o.resolve d patterns with
    | ok paths => exact ⟨paths, rfl⟩
    | error error =>
      unfold run at hanswered
      simp only [hcheck, lintInput_files, hresolve] at hanswered
      exact nomatch hanswered
  have hrun : run engine d o = _ := run_eq_of_resolve hcheck hresolve
  rw [hrun] at hanswered
  obtain ⟨results, hresults, rfl⟩ := exists_of_map_eq_ok hanswered
  have hchecks := forall₂_check_lintEach (by rw [openCache_eq h.cache, h.fix])
    (by rw [openCache_eq h.cache]) (nodup_of_resolve hresolve) hresults
  -- The texts are the same, and the cache that is opened is the one that was left.
  have hagain : List.Forall₂ (fun path result => ∃ text,
      (run engine d o).disk.readText path = .ok text ∧
        (o.openCache (run engine d o).disk).check path (Digest.ofString text) = some result)
      paths results := by
    refine ((List.forall₂_and_left _ _).mpr ⟨h.texts paths hresolve, hchecks⟩).imp ?_
    rintro path result ⟨htext, text, hread, hstored⟩
    exact ⟨text, htext.trans hread,
      ((h.agreesAt_openCache hcheck hresolve path).check_eq _).trans hstored⟩
  have hstored := lintEach_of_stored engine o.settings hagain []
  rw [run_eq_of_resolve hcheck (h.resolved.trans hresolve)]
  simp only [lintFiles, hstored]
  exact ⟨rfl, trivial⟩

end RunOptions

/-- **What a run asks, and what it asks when it is repeated.**  A cached run is answered the same
when it is repeated, without the engine, if its cache file could be written and lies in the same
place, and if its files are the same with the same texts.  A run that no file ends asks the engine
once about each of its files for which there is no stored result, and about no other file; if it
fixes or has no cache, once about each of its files. -/
theorem run_twice {patterns : List String} {formatter : Formatter}
    (hcheck : o.check = .ok (.files patterns, formatter)) :
    (∀ outcome, o.IsRepeatable engine d patterns outcome →
      (run engine (run engine d o).disk o).answer = .ok outcome ∧
        (run engine (run engine d o).disk o).asked = []) ∧
    ∀ paths, o.resolve d patterns = .ok paths →
      (∀ path ∈ paths, isFatal engine o.settings d (o.openCache d) path = false) →
        paths.Nodup ∧
        (o.cache = true → o.settings.fix = false →
          List.Forall₂ (IsSourceOf d) (paths.filter fun path => !o.isStored d path)
            (run engine d o).asked) ∧
        (o.settings.fix = true ∨ o.cache = false →
          List.Forall₂ (IsSourceOf d) paths (run engine d o).asked) := by
  refine ⟨fun outcome h => h.run_eq hcheck, ?_⟩
  intro paths hresolve hfatal
  have hpaths := RunOptions.nodup_of_resolve hresolve
  have hasked : List.Forall₂ (IsSourceOf d)
      (paths.filter fun path => !(o.openCache d).hits d path)
      (lintFiles engine o.settings d paths (o.openCache d)).asked :=
    forall₂_asked_lintEach hpaths hfatal
  rw [run_eq_of_resolve hcheck hresolve]
  refine ⟨hpaths, fun hcache hfix => ?_, fun hbypassed => ?_⟩
  · simpa only [RunOptions.hits_openCache hcache hfix] using hasked
  · simpa only [RunOptions.hits_openCache_of_bypassed hbypassed, Bool.not_false, List.filter_true]
      using hasked

/-- A stylesheet is linted twice: the engine is asked the first time only. -/
theorem run_twice_oneFile :
    ∃ outcome, (run Engine.structural oneFile oneFileOptions).answer = .ok outcome ∧
      List.Forall₂ (IsSourceOf oneFile) ["/a"]
        (run Engine.structural oneFile oneFileOptions).asked ∧
      (run Engine.structural (run Engine.structural oneFile oneFileOptions).disk
        oneFileOptions).answer = .ok outcome ∧
      (run Engine.structural (run Engine.structural oneFile oneFileOptions).disk
        oneFileOptions).asked = [] := by
  have hpassed : (run Engine.structural oneFile oneFileOptions).answer.toOption.isSome = true := by
    decide +kernel
  obtain ⟨outcome, houtcome⟩ := Option.isSome_iff_exists.mp hpassed
  have hresolve : oneFileOptions.resolve oneFile ["a"] = .ok ["/a"] :=
    eq_ok_of_toOption (by decide +kernel)
  have hrepeatable :
      oneFileOptions.IsRepeatable Engine.structural oneFile ["a"] outcome := by
    refine ⟨⟨_, rfl⟩, rfl, rfl, eq_ok_of_toOption houtcome, ?_, by decide +kernel, ?_, ?_⟩
    · intro paths hpaths
      cases hresolve.symm.trans hpaths
      exact eq_ok_of_toOption (by decide +kernel)
    · rw [hresolve]
      exact eq_ok_of_toOption (by decide +kernel)
    · intro paths hpaths path hpath
      cases hresolve.symm.trans hpaths
      rw [List.mem_singleton.mp hpath,
        show oneFile.readText "/a" = .ok "a{}" from eq_ok_of_toOption (by decide +kernel)]
      exact eq_ok_of_toOption (by decide +kernel)
  have htwice := @run_twice Engine.structural oneFile oneFileOptions ["a"] _ rfl
  obtain ⟨-, hasked, -⟩ := htwice.2 ["/a"] hresolve (by decide +kernel)
  have hnew : (["/a"].filter fun path => !oneFileOptions.isStored oneFile path) = ["/a"] := by
    decide +kernel
  have hfirst := hasked rfl rfl
  rw [hnew] at hfirst
  exact ⟨outcome, hrepeatable.answered, hfirst, htwice.1 outcome hrepeatable⟩

/-- A run with its input file for a cache file finds another text when it is repeated, and fails. -/
theorem run_twice_differs :
    let o : RunOptions := { oneFileOptions with cacheLocation := some "a" }
    let left := (run Engine.structural oneFile o).disk
    (run Engine.structural oneFile o).answer.toOption.isSome = true ∧
      ((lintEach Engine.structural o.settings oneFile ["/a"]
        ⟨o.openCache oneFile, []⟩).2.cache.cache.save oneFile).answer.toOption = some () ∧
      o.cacheFile left = o.cacheFile oneFile ∧
      (o.resolve oneFile ["a"]).toOption = some ["/a"] ∧
      (o.resolve left ["a"]).toOption = some ["/a"] ∧
      (run Engine.structural left o).answer.toOption = none := by
  decide +kernel

end SheetLint
