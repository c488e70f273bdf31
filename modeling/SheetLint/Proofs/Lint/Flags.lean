import SheetLint.Proofs.Lint.Asked

/-!
# The flags of results

A result carries a flag that says whether its findings fail the run.  The flag of a new result is
made from its findings; that of a stored result is taken as it was stored, and nobody looks at the
findings again.

So flags are right as long as those in the caches are: if what a run finds in its cache file holds
results with the right flag, so does every result of the run, and the cache that the run leaves
behind: `isFlagged_of_run` and `areFlagged_of_stores`.  Caches that nobody but runs has written
therefore hold no other results, whatever the engines were: `flags_after_turns`.

A source that the engine refuses as malformed has a result too, with the failure as its one warning,
which is an error (`exists_lintSource_of_malformed`).

The property is kept on a disk as a whole, `Disk.CachesAreFlagged`, so that a program can be run
after others without a word about the histories of their caches.
-/

namespace SheetLint

/-- The result has a parse error or a warning that is an error. -/
def SourceResult.HasError (r : SourceResult) : Prop :=
  r.parseErrors ≠ [] ∨ ∃ w ∈ r.warnings, w.severity = .error

/-- The flag of the result says whether its findings fail the run. -/
def SourceResult.IsFlagged (r : SourceResult) : Prop := r.errored = r.fails

/-- Every entry holds a result with the right flag. -/
def Keyed.AreFlagged (entries : Keyed CachedResult) : Prop :=
  ∀ path e, entries.find? path = some e → e.result.IsFlagged

/-- Every cache on the disk holds results with the right flag. -/
def Disk.CachesAreFlagged (d : Disk) : Prop :=
  d.AllContents fun content =>
    ∀ entries, Cache.ofFileContent? content = some entries → entries.AreFlagged

namespace SourceResult

lemma fails_iff (r : SourceResult) : r.fails = true ↔ r.HasError := by
  simp [fails, HasError, Warning.isError]

lemma IsFlagged.fails_run_iff {r : SourceResult} (h : r.IsFlagged) :
    (r.errored || !r.parseErrors.isEmpty) = true ↔ r.HasError := by
  have hflag : r.errored = r.fails := h
  rw [hflag, ← fails_iff]
  cases hparse : r.parseErrors <;> simp [fails, hparse]

lemma isFlagged_ofFindings (source : String) (findings : Findings) :
    (ofFindings source findings).IsFlagged := rfl

lemma isFlagged_of_ofAnswer {source : String} {answer : Except Failure Findings}
    {r : SourceResult} (h : ofAnswer source answer = .ok r) : r.IsFlagged := by
  cases answer with
  | ok findings =>
    cases h
    exact isFlagged_ofFindings source findings
  | error failure =>
    simp only [ofAnswer, ofFailure] at h
    split at h
    · cases h
      exact isFlagged_ofFindings _ _
    · cases h

end SourceResult

variable {engine : Engine} {settings : EngineSettings}

/-- **A new result has the right flag.** -/
lemma isFlagged_of_lintSource {source : Source} {r : SourceResult}
    (h : lintSource engine settings source = .ok r) : r.IsFlagged := by
  unfold lintSource at h
  cases hanswer :
    SourceResult.ofAnswer (source.name.getD unnamedSource) (engine source settings) with
  | error failure =>
    rw [hanswer] at h
    exact nomatch h
  | ok result =>
    rw [hanswer] at h
    cases h
    exact SourceResult.isFlagged_of_ofAnswer hanswer

lemma Keyed.areFlagged_nil : AreFlagged [] := fun _ _ h => nomatch h

lemma Keyed.AreFlagged.insert {entries : Keyed CachedResult} (h : AreFlagged entries)
    {path : String} {e : CachedResult} (he : e.result.IsFlagged) :
    AreFlagged (entries.insert path e) := by
  intro other e' he'
  by_cases hpath : other = path
  · subst hpath
    rw [find?_insert_self] at he'
    exact Option.some.inj he' ▸ he
  · rw [find?_insert_of_ne hpath] at he'
    exact h other e' he'

/-! ### Linting -/

section

variable {c : RunCache} {s : LintState} {d : Disk}

lemma RunCache.isFlagged_of_check (h : c.cache.entries.AreFlagged) {path digest : String}
    {r : SourceResult} (hcheck : c.check path digest = some r) : r.IsFlagged := by
  unfold check at hcheck
  split at hcheck
  · exact nomatch hcheck
  · obtain ⟨e, hvalid, rfl⟩ := Option.map_eq_some_iff.mp hcheck
    have hget := (Option.filter_eq_some_iff.mp hvalid).1
    unfold Cache.get? at hget
    split at hget
    · exact h path e hget
    · exact nomatch hget

lemma RunCache.areFlagged_record (h : c.cache.entries.AreFlagged) {path digest : String}
    {r : SourceResult} (hr : r.IsFlagged) :
    (c.record path digest r).cache.entries.AreFlagged := by
  unfold record Cache.insert
  split
  · exact h.insert hr
  · exact h

/-- **One file.** -/
lemma areFlagged_lintFile (engine : Engine) (settings : EngineSettings) (d : Disk)
    (h : s.cache.cache.entries.AreFlagged) (path : String) :
    (∀ r, (lintFile engine settings d path s).1 = .ok r → r.IsFlagged) ∧
      (lintFile engine settings d path s).2.cache.cache.entries.AreFlagged := by
  unfold lintFile
  cases d.readText path with
  | error error =>
    refine ⟨fun r hr => ?_, h⟩
    cases hr
  | ok text =>
    simp only [lintText]
    cases hcheck : s.cache.check path (Digest.ofString text) with
    | some stored =>
      refine ⟨fun r hr => ?_, h⟩
      cases hr
      exact RunCache.isFlagged_of_check h hcheck
    | none =>
      cases hresult : lintSource engine settings ⟨text, some path⟩ with
      | error error =>
        refine ⟨fun r hr => ?_, h⟩
        cases hr
      | ok fresh =>
        have hfresh := isFlagged_of_lintSource hresult
        refine ⟨fun r hr => ?_, RunCache.areFlagged_record h hfresh⟩
        cases hr
        exact hfresh

/-- **A list of files.**  By induction on it: each file leaves a cache with the right flags to the
next. -/
lemma areFlagged_lintEach (h : s.cache.cache.entries.AreFlagged) (paths : List String) :
    (∀ results, (lintEach engine settings d paths s).1 = .ok results →
        ∀ r ∈ results, r.IsFlagged) ∧
      (lintEach engine settings d paths s).2.cache.cache.entries.AreFlagged := by
  induction paths generalizing s with
  | nil =>
    refine ⟨fun results hresults => ?_, h⟩
    cases hresults
    exact List.forall_mem_nil _
  | cons path paths ih =>
    have hfile := areFlagged_lintFile engine settings d h path
    unfold lintEach
    cases hone : lintFile engine settings d path s with
    | mk answer s' =>
      rw [hone] at hfile
      cases answer with
      | error error =>
        refine ⟨fun results hresults => ?_, hfile.2⟩
        cases hresults
      | ok result =>
        have hrest := ih hfile.2
        refine ⟨fun results hresults => ?_, hrest.2⟩
        obtain ⟨more, hmore, rfl⟩ := exists_of_map_eq_ok hresults
        exact List.forall_mem_cons.mpr ⟨hfile.1 result rfl, hrest.1 more hmore⟩

/-! ### Runs -/

variable {o : RunOptions}

lemma areFlagged_openCache (h : ∀ entries, o.Finds d entries → entries.AreFlagged) :
    (o.openCache d).cache.entries.AreFlagged := by
  rcases o.openCache_entries_cases d with hnone | hfound
  · rw [hnone]
    exact Keyed.areFlagged_nil
  · exact h _ hfound

/-- **The results of a run have the right flags**, if those that it finds have them. -/
theorem isFlagged_of_run (h : ∀ entries, o.Finds d entries → entries.AreFlagged)
    {outcome : Outcome} (hrun : (run engine d o).answer = .ok outcome) :
    ∀ r ∈ outcome.results, r.IsFlagged := by
  rcases run_cases engine d o with ⟨error, -, heq⟩ | ⟨text, name, formatter, -, heq⟩ |
      ⟨patterns, formatter, paths, -, -, heq⟩ <;> rw [heq] at hrun
  · exact nomatch hrun
  · obtain ⟨results, hresults, rfl⟩ := exists_of_map_eq_ok hrun
    obtain ⟨result, hresult, rfl⟩ := exists_of_map_eq_ok hresults
    exact List.forall_mem_singleton.mpr (isFlagged_of_lintSource hresult)
  · obtain ⟨results, hresults, rfl⟩ := exists_of_map_eq_ok hrun
    exact (areFlagged_lintEach (areFlagged_openCache h) paths).1 results hresults

/-- **A run stores the right flags**, if those that it finds are right. -/
lemma areFlagged_of_stores (h : ∀ entries, o.Finds d entries → entries.AreFlagged)
    {entries : Keyed CachedResult} (hstores : o.Stores engine d entries) :
    entries.AreFlagged := by
  obtain ⟨patterns, formatter, paths, -, -, -, rfl⟩ := hstores
  exact (areFlagged_lintEach (areFlagged_openCache h) paths).2

lemma errored_iff_of_run (h : ∀ entries, o.Finds d entries → entries.AreFlagged)
    {outcome : Outcome} (hrun : (run engine d o).answer = .ok outcome) :
    outcome.errored = true ↔ ∃ r ∈ outcome.results, r.HasError := by
  have hflags := isFlagged_of_run h hrun
  have herrored : outcome.errored =
      outcome.results.any fun r => r.errored || !r.parseErrors.isEmpty := by
    unfold run at hrun
    split at hrun
    · exact nomatch hrun
    · obtain ⟨results, -, rfl⟩ := exists_of_map_eq_ok hrun
      rfl
  rw [herrored, List.any_eq_true]
  exact exists_congr fun r => and_congr_right fun hr => (hflags r hr).fails_run_iff

/-! ### Disks -/

/-- A run on a disk whose caches have the right flags finds no others. -/
lemma Disk.CachesAreFlagged.finds (h : d.CachesAreFlagged) {entries : Keyed CachedResult}
    (hfinds : o.Finds d entries) : entries.AreFlagged := by
  obtain ⟨-, content, hread, hentries⟩ := hfinds
  exact h.read hread entries hentries

theorem cachesAreFlagged_run (h : d.CachesAreFlagged) (engine : Engine) (o : RunOptions) :
    (run engine d o).disk.CachesAreFlagged := by
  refine run_allContents h ?_
  intro entries hstores found hfound
  rw [Cache.ofFileContent?_fileContent] at hfound
  rw [← Option.some.inj hfound]
  exact areFlagged_of_stores (fun _ => h.finds) hstores

/-! ### Turns -/

/-- What a failure of the stylesheet's own making amounts to. -/
lemma exists_lintSource_of_malformed {source : Source} {failure : Failure}
    (hfailure : engine source settings = .error failure)
    (hmalformed : failure.isMalformedSource = true) :
    ∃ r w, lintSource engine settings source = .ok r ∧ r.warnings = [w] ∧ w.severity = .error := by
  refine ⟨.ofFindings (failure.file.getD unnamedSource)
    { warnings := [SourceResult.failureWarning failure] }, SourceResult.failureWarning failure,
    ?_, rfl, rfl⟩
  unfold lintSource
  rw [hfailure, SourceResult.ofAnswer, SourceResult.ofFailure, if_pos hmalformed]
  rfl

/-- **Flags are never stale.**  After any turns in which nobody but runs has written caches, the
flag of each result of a run says whether there is an error among its findings, and the flag of the
outcome whether one of the results has one.  A source that the engine refuses as malformed has a
result with one warning, which is an error. -/
theorem flags_after_turns (engine : Engine) (d : Disk) (o : RunOptions) (turns : List Turn)
    (hown : OnlyTurnsStore d (turns ++ [(engine, .run o)])) :
    (∀ outcome, (run engine (afterTurns d turns) o).answer = .ok outcome →
      (∀ r ∈ outcome.results, (r.errored = true ↔ r.HasError)) ∧
        (outcome.errored = true ↔ ∃ r ∈ outcome.results, r.HasError)) ∧
    ∀ source failure, engine source o.settings = .error failure →
      failure.isMalformedSource = true →
        ∃ r w, lintSource engine o.settings source = .ok r ∧ r.warnings = [w] ∧
          w.severity = .error ∧
            (source ∈ (run engine (afterTurns d turns) o).asked → ∀ outcome,
              (run engine (afterTurns d turns) o).answer = .ok outcome → r ∈ outcome.results) := by
  refine ⟨fun outcome hrun => ?_, fun source failure hfailure hmalformed => ?_⟩
  -- Right flags go round in a circle: from what is found to what is stored, and to what is found.
  · have hstored : ∀ entries ∈ storedInTurns d turns, entries.AreFlagged :=
      forall_mem_storedInTurns hown
        (fun _ _ _ _ _ hfound _ hstores => areFlagged_of_stores hfound hstores) turns _ rfl
    have hfound : ∀ entries, o.Finds (afterTurns d turns) entries → entries.AreFlagged :=
      fun entries hfinds => hstored entries (hown turns engine o [] rfl entries hfinds)
    refine ⟨fun r hr => ?_, errored_iff_of_run hfound hrun⟩
    rw [isFlagged_of_run hfound hrun r hr, SourceResult.fails_iff]
  · obtain ⟨r, w, hresult, hwarnings, herror⟩ :=
      exists_lintSource_of_malformed hfailure hmalformed
    refine ⟨r, w, hresult, hwarnings, herror, fun hasked outcome hrun => ?_⟩
    obtain ⟨r', hr', hresult'⟩ := exists_result_of_mem_asked hrun hasked
    rw [hresult] at hresult'
    cases hresult'
    exact hr'

end

/-- An engine that refuses every source as malformed. -/
def Engine.refusing : Engine := fun _ _ =>
  .error ⟨Failure.malformedSource, "refused", 1, 1, none⟩

/-- A result that an engine was refused, and that another one finds in the cache. -/
theorem flags_after_turns_refused :
    ∃ outcome,
      (run Engine.structural (afterTurns oneFile [(Engine.refusing, .run oneFileOptions)])
        oneFileOptions).answer = .ok outcome ∧
      outcome.errored = true ∧ (∃ r ∈ outcome.results, r.HasError) ∧
      ∃ r w, lintSource Engine.structural oneFileOptions.settings ⟨"a\x7b", none⟩ = .ok r ∧
        r.warnings = [w] ∧ w.severity = .error := by
  have hown : OnlyTurnsStore oneFile ([(Engine.refusing, .run oneFileOptions)] ++
      [(Engine.structural, .run oneFileOptions)]) := by
    refine onlyTurnsStore_of_bringsNoCache allContents_oneFile ?_
    intro turn hturn
    rcases List.mem_pair.mp hturn with rfl | rfl <;> trivial
  have hrun : ((run Engine.structural
      (afterTurns oneFile [(Engine.refusing, .run oneFileOptions)])
        oneFileOptions).answer.toOption.map Outcome.errored) = some true := by
    decide +kernel
  obtain ⟨hflags, hmalformed⟩ := flags_after_turns Engine.structural oneFile oneFileOptions _ hown
  obtain ⟨outcome, houtcome, herrored⟩ := Option.map_eq_some_iff.mp hrun
  have hanswer := eq_ok_of_toOption houtcome
  obtain ⟨r, w, hresult, hwarnings, herror, -⟩ :=
    hmalformed ⟨"a\x7b", none⟩ ⟨Failure.malformedSource, "Unclosed block", 1, 2, none⟩
      (by decide +kernel) (by decide +kernel)
  exact ⟨outcome, hanswer, herrored, (hflags outcome hanswer).2.mp herrored, r, w, hresult,
    hwarnings, herror⟩

end SheetLint
