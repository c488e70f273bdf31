import SheetLint.Proofs.Cache.Fixing

/-!
# What becomes of what is asked

An engine is handed one source after the other, and each gets a result unless it ends the run.  So
whatever a run has asked is settled by its answer, `Settles`: if there are results, each source has
one among them; if there is an error, it is that of a source, or of a file that could not be read
(`settles_lintEach`).  No source is asked about twice (`nodup_asked_run`), since a run has each file
once.

`Settles` is put together along a list of files.  One source settles itself, results are followed by
more (`Settles.append`), and an error is final (`Settles.weaken`).

A run that ends before it opens its cache has asked nothing.  There are three kinds of runs: those,
runs over an inline source, and runs over files (`run_cases`).  What is to be said of all runs is
said of each kind.
-/

namespace SheetLint

/-- A run ends with the error before it opens its cache. -/
inductive RunOptions.EndsEarly (o : RunOptions) (d : Disk) : RunError → Prop
  /-- The input or the formatter is refused. -/
  | refused {error : ConfigError} (h : o.check = .error error) : EndsEarly o d (.config error)
  /-- A pattern or the ignore rules are to blame. -/
  | unresolved {patterns : List String} {formatter : Formatter} {error : RunError}
    (hcheck : o.check = .ok (.files patterns, formatter))
    (h : o.resolve d patterns = .error error) : EndsEarly o d error

variable {engine : Engine} {settings : EngineSettings} {d : Disk} {o : RunOptions}

/-- The answer settles what has been asked about sources with these names.  The names of unreadable
files are among them. -/
structure Settles (engine : Engine) (settings : EngineSettings) (d : Disk)
    (names : List (Option String)) (asked : List Source)
    (answer : Except RunError (List SourceResult)) : Prop where
  sublist : (asked.map Source.name).Sublist names
  answered : ∀ results, answer = .ok results → ∀ source ∈ asked,
    ∃ r ∈ results, lintSource engine settings source = .ok r
  failed : ∀ error, answer = .error error →
    (∃ path e, some path ∈ names ∧ d.readText path = .error e ∧ error = .inputFile path e) ∨
      ∃ source ∈ asked, lintSource engine settings source = .error error

namespace Settles

lemma nil : Settles engine settings d [] [] (.ok []) :=
  ⟨.refl _, fun _ _ _ hmem => (nomatch hmem), fun _ h => (nomatch h)⟩

variable (engine settings d) in
lemma source (source : Source) :
    Settles engine settings d [source.name] [source]
      ((lintSource engine settings source).map ([·])) := by
  refine ⟨.refl _, fun results hresults source' hmem => ?_, fun error herror => ?_⟩
  · obtain ⟨r, hr, rfl⟩ := exists_of_map_eq_ok hresults
    rw [List.mem_singleton.mp hmem]
    exact ⟨r, List.mem_singleton_self r, hr⟩
  · refine Or.inr ⟨source, List.mem_singleton_self source, ?_⟩
    cases hsource : lintSource engine settings source with
    | error error' =>
      rw [hsource] at herror
      cases herror
      rfl
    | ok r =>
      rw [hsource] at herror
      exact nomatch herror

lemma weaken {names more : List (Option String)} {asked : List Source} {error : RunError}
    (h : Settles engine settings d names asked (.error error)) :
    Settles engine settings d (names ++ more) asked (.error error) := by
  refine ⟨h.sublist.trans (List.sublist_append_left _ _), fun _ hresults => (nomatch hresults),
    fun error' herror => ?_⟩
  rcases h.failed error' herror with ⟨path, e, hmem, hread⟩ | hsource
  · exact Or.inl ⟨path, e, List.mem_append_left _ hmem, hread⟩
  · exact Or.inr hsource

/-- What comes first has results; then the rest settles the whole. -/
lemma append {names names' : List (Option String)} {asked asked' : List Source}
    {results : List SourceResult} {answer : Except RunError (List SourceResult)}
    (h : Settles engine settings d names asked (.ok results))
    (h' : Settles engine settings d names' asked' answer) :
    Settles engine settings d (names ++ names') (asked ++ asked') (answer.map (results ++ ·)) := by
  refine ⟨?_, fun all hall source hmem => ?_, fun error herror => ?_⟩
  · rw [List.map_append]
    exact h.sublist.append h'.sublist
  · obtain ⟨later, hlater, rfl⟩ := exists_of_map_eq_ok hall
    rcases List.mem_append.mp hmem with hmem | hmem
    · obtain ⟨r, hr, hsource⟩ := h.answered results rfl source hmem
      exact ⟨r, List.mem_append_left _ hr, hsource⟩
    · obtain ⟨r, hr, hsource⟩ := h'.answered later hlater source hmem
      exact ⟨r, List.mem_append_right _ hr, hsource⟩
  · cases answer with
    | ok later => exact nomatch herror
    | error error' =>
      cases herror
      rcases h'.failed error rfl with ⟨path, e, hmem, hread⟩ | ⟨source, hmem, hsource⟩
      · exact Or.inl ⟨path, e, List.mem_append_right _ hmem, hread⟩
      · exact Or.inr ⟨source, List.mem_append_right _ hmem, hsource⟩

end Settles

variable (engine settings d) in
/-- **One file.** -/
lemma settles_lintFile (path : String) (s : LintState) :
    ∃ asked, (lintFile engine settings d path s).2.asked = s.asked ++ asked ∧
      Settles engine settings d [some path] asked
        ((lintFile engine settings d path s).1.map ([·])) := by
  unfold lintFile
  cases hread : d.readText path with
  | error error =>
    refine ⟨[], (List.append_nil _).symm, List.nil_sublist _,
      fun _ _ _ hmem => absurd hmem List.not_mem_nil, fun error' herror => ?_⟩
    cases herror
    exact Or.inl ⟨path, error, List.mem_singleton_self _, hread, rfl⟩
  | ok text =>
    simp only [lintText]
    cases s.cache.check path (Digest.ofString text) with
    | some stored =>
      refine ⟨[], (List.append_nil _).symm, List.nil_sublist _,
        fun _ _ _ hmem => absurd hmem List.not_mem_nil, fun _ herror => ?_⟩
      cases herror
    | none =>
      have hsettles := Settles.source engine settings d ⟨text, some path⟩
      cases hsource : lintSource engine settings ⟨text, some path⟩ <;> rw [hsource] at hsettles <;>
        exact ⟨_, rfl, hsettles⟩

variable (engine settings d) in
/-- **A list of files.**  By induction on it. -/
theorem settles_lintEach (paths : List String) (s : LintState) :
    ∃ asked, (lintEach engine settings d paths s).2.asked = s.asked ++ asked ∧
      Settles engine settings d (paths.map some) asked
        (lintEach engine settings d paths s).1 := by
  induction paths generalizing s with
  | nil => exact ⟨[], (List.append_nil _).symm, .nil⟩
  | cons path paths ih =>
    obtain ⟨asked, hasked, hsettles⟩ := settles_lintFile engine settings d path s
    rw [lintEach, List.map_cons]
    cases hone : lintFile engine settings d path s with
    | mk answer next =>
      rw [hone] at hasked hsettles
      cases answer with
      | error error => exact ⟨asked, hasked, hsettles.weaken⟩
      | ok result =>
        obtain ⟨later, hlater, hrest⟩ := ih next
        refine ⟨asked ++ later, ?_, hsettles.append hrest⟩
        rw [← List.append_assoc, ← hasked, ← hlater]

/-! ### Runs -/

variable (engine) in
lemma run_of_endsEarly {error : RunError} (h : o.EndsEarly d error) :
    run engine d o = ⟨.error error, d, []⟩ := by
  unfold run
  cases h with
  | refused hcheck => rw [hcheck]
  | unresolved hcheck hresolve =>
    rw [hcheck]
    simp only [lintInput_files, hresolve]
    rfl

variable (engine d o) in
/-- **What a run does.**  It ends early, or it lints an inline source, or it lints files. -/
theorem run_cases :
    (∃ error, o.EndsEarly d error ∧ run engine d o = ⟨.error error, d, []⟩) ∨
    (∃ text name formatter, o.check = .ok (.code text name, formatter) ∧
      run engine d o =
        ⟨((lintSource engine o.settings ⟨text, name⟩).map ([·])).map
            (Outcome.ofResults formatter o.settings.reportNeedlessDisables),
          d, [⟨text, name⟩]⟩) ∨
    ∃ patterns formatter paths, o.check = .ok (.files patterns, formatter) ∧
      o.resolve d patterns = .ok paths ∧
      run engine d o =
        ⟨(lintFiles engine o.settings d paths (o.openCache d)).answer.map
            (Outcome.ofResults formatter o.settings.reportNeedlessDisables),
          (lintFiles engine o.settings d paths (o.openCache d)).disk,
          (lintFiles engine o.settings d paths (o.openCache d)).asked⟩ := by
  cases hcheck : o.check with
  | error error =>
    exact Or.inl ⟨.config error, .refused hcheck, run_of_endsEarly engine (.refused hcheck)⟩
  | ok pair =>
    obtain ⟨input, formatter⟩ := pair
    cases input with
    | code text name =>
      refine Or.inr (Or.inl ⟨text, name, formatter, rfl, ?_⟩)
      unfold run
      rw [hcheck]
      rfl
    | files patterns =>
      cases hresolve : o.resolve d patterns with
      | error error =>
        exact Or.inl ⟨error, .unresolved hcheck hresolve,
          run_of_endsEarly engine (.unresolved hcheck hresolve)⟩
      | ok paths =>
        exact Or.inr (Or.inr ⟨patterns, formatter, paths, rfl, hresolve,
          run_eq_of_resolve hcheck hresolve⟩)

variable (engine d o) in
/-- A run that does not end early settles what it asks, and asks about no name twice. -/
lemma settles_run :
    (∃ error, o.EndsEarly d error ∧ run engine d o = ⟨.error error, d, []⟩) ∨
    ∃ names formatter answer, names.Nodup ∧
      (run engine d o).answer =
        answer.map (Outcome.ofResults formatter o.settings.reportNeedlessDisables) ∧
      Settles engine o.settings d names (run engine d o).asked answer := by
  rcases run_cases engine d o with hearly | ⟨text, name, formatter, -, hrun⟩ |
      ⟨patterns, formatter, paths, -, hresolve, hrun⟩
  · exact Or.inl hearly
  · rw [hrun]
    exact Or.inr ⟨_, formatter, _, List.nodup_singleton name, rfl, .source _ _ _ ⟨text, name⟩⟩
  · obtain ⟨asked, hasked, hsettles⟩ :=
      settles_lintEach engine o.settings d paths ⟨o.openCache d, []⟩
    have hnodup := (RunOptions.nodup_of_resolve hresolve).map (Option.some_injective String)
    rw [List.nil_append] at hasked
    rw [← hasked] at hsettles
    rw [hrun]
    exact Or.inr ⟨_, formatter, _, hnodup, rfl, hsettles⟩

variable (engine d o) in
/-- **No source is handed over twice in a run.**  So a run cannot tell an engine that remembers what
it has been asked from a function. -/
theorem nodup_asked_run : (run engine d o).asked.Nodup := by
  rcases settles_run engine d o with ⟨error, -, hrun⟩ | ⟨names, _, _, hnodup, -, hsettles⟩
  · rw [hrun]
    exact List.nodup_nil
  · exact .of_map _ (hsettles.sublist.nodup hnodup)

lemma exists_result_of_mem_asked {outcome : Outcome}
    (hrun : (run engine d o).answer = .ok outcome) {source : Source}
    (hsource : source ∈ (run engine d o).asked) :
    ∃ r ∈ outcome.results, lintSource engine o.settings source = .ok r := by
  rcases settles_run engine d o with ⟨error, -, hearly⟩ | ⟨_, _, _, -, hanswer, hsettles⟩
  · rw [hearly] at hrun
    exact nomatch hrun
  · rw [hanswer] at hrun
    obtain ⟨results, hresults, rfl⟩ := exists_of_map_eq_ok hrun
    exact hsettles.answered results hresults source hsource

end SheetLint
