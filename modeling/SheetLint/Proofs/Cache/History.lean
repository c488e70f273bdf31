import SheetLint.Engine.Structural
import SheetLint.Proofs.Cache.Persistence
import SheetLint.Proofs.Cache.Soundness
import SheetLint.Proofs.Disk.Contents
import SheetLint.Proofs.Except
import SheetLint.Proofs.Lint.Alone
import SheetLint.Run

/-!
# Runs that share a cache

A history is a sequence of runs and of changes that others make to the disk.  Runs find in their
cache files what earlier runs have stored there.  Whatever the history, a run with a cache answers
as it would without one (`cached_run_answer_eq`), provided that no two hashed texts share a digest
and that nobody but runs writes caches.

The answers are about one engine.  What is stored at all is described for turns, in which each run
has an engine of its own; a history is then the turns of its engine (`storedInTurns_map`).  The
induction is `forall_mem_storedInTurns`: if what a run finds has a property then so does what it
stores, and hence all that is stored.

That nobody else writes caches is said of what runs find, `OnlyRunsStore`.  It holds of histories in
which no other event brings a cache onto the disk, if there is none at the beginning
(`onlyTurnsStore_of_bringsNoCache`).  Files can be written and removed at will: a removed cache is
an empty one, and a file that holds something else cannot be decoded.
-/

namespace SheetLint

/-! ## Histories -/

/-- What happens to a disk. -/
inductive Event where
  | run (options : RunOptions)
  /-- Someone writes a file. -/
  | write (path : String) (content : ByteArray)
  /-- Someone makes a directory and its parents. -/
  | makeDirs (path : String)
  /-- Someone removes a file, a link or a directory. -/
  | remove (path : String)

/-- The disk after an event.  Changes that fail leave it as it is. -/
def Event.disk (engine : Engine) (d : Disk) : Event → Disk
  | .run options => (SheetLint.run engine d options).disk
  | .write path content => (d.write path content).toOption.getD d
  | .makeDirs path => (d.makeDirs path).disk
  | .remove path => (d.remove path).toOption.getD d

/-- The disk after a history. -/
def after (engine : Engine) (d : Disk) (history : List Event) : Disk :=
  history.foldl (Event.disk engine) d

/-- A run hashes the text: it is the text of an input file or the key text of the settings. -/
def RunOptions.Hashes (o : RunOptions) (d : Disk) (text : String) : Prop :=
  ∃ patterns formatter paths, o.check = .ok (.files patterns, formatter) ∧
    o.resolve d patterns = .ok paths ∧
      (text = o.settings.keyText ∨ ∃ path ∈ paths, d.readText path = .ok text)

/-- These are the entries that a run with a cache leaves in it. -/
def RunOptions.Stores (engine : Engine) (o : RunOptions) (d : Disk)
    (entries : Keyed CachedResult) : Prop :=
  ∃ patterns formatter paths, o.check = .ok (.files patterns, formatter) ∧
    o.resolve d patterns = .ok paths ∧ o.cache = true ∧
      (lintEach engine o.settings d paths ⟨o.openCache d, []⟩).2.cache.cache.entries = entries

/-- The texts that the runs of a history have hashed. -/
def hashedIn (engine : Engine) (d : Disk) (history : List Event) : Set String :=
  {text | ∃ before o later, history = before ++ .run o :: later ∧
    o.Hashes (after engine d before) text}

/-- The entries that the runs of a history have left in their caches. -/
def storedIn (engine : Engine) (d : Disk) (history : List Event) : Set (Keyed CachedResult) :=
  {entries | ∃ before o later, history = before ++ .run o :: later ∧
    o.Stores engine (after engine d before) entries}

/-- **Nobody but runs writes caches.**  Whenever a run finds a cache in its cache file, an earlier
run has stored it. -/
def OnlyRunsStore (engine : Engine) (d : Disk) (history : List Event) : Prop :=
  ∀ before o later, history = before ++ .run o :: later → o.cache = true →
    ∀ content entries,
      (after engine d before).read (o.cacheFile (after engine d before)) = .ok content →
        Cache.ofFileContent? content = some entries → entries ∈ storedIn engine d before

/-! ## Turns -/

/-- An event, and the engine that lints if the event is a run. -/
abbrev Turn := Engine × Event

/-- The disk after turns. -/
def afterTurns (d : Disk) (turns : List Turn) : Disk :=
  turns.foldl (fun d turn => turn.2.disk turn.1 d) d

/-- These are the entries that a run finds in its cache file. -/
def RunOptions.Finds (o : RunOptions) (d : Disk) (entries : Keyed CachedResult) : Prop :=
  o.cache = true ∧
    ∃ content, d.read (o.cacheFile d) = .ok content ∧ Cache.ofFileContent? content = some entries

/-- The entries that the runs among the turns have left in their caches. -/
def storedInTurns (d : Disk) (turns : List Turn) : Set (Keyed CachedResult) :=
  {entries | ∃ before engine o later, turns = before ++ (engine, .run o) :: later ∧
    o.Stores engine (afterTurns d before) entries}

/-- **Nobody but the runs among the turns writes caches**, as `OnlyRunsStore` says of a history. -/
def OnlyTurnsStore (d : Disk) (turns : List Turn) : Prop :=
  ∀ before engine o later, turns = before ++ (engine, .run o) :: later →
    ∀ entries, o.Finds (afterTurns d before) entries → entries ∈ storedInTurns d before

variable {engine : Engine} {hashed : Set String} {d : Disk} {o : RunOptions}

/-- **What each run passes on holds of all that is stored.**  If the entries that a run stores have
a property as soon as those it finds have it, all stored entries have it.  By induction on the
number of turns: what a run finds has been stored in fewer of them. -/
theorem forall_mem_storedInTurns {P : Keyed CachedResult → Prop} {turns : List Turn}
    (hown : OnlyTurnsStore d turns)
    (hrun : ∀ before engine o later, turns = before ++ (engine, .run o) :: later →
      (∀ entries, o.Finds (afterTurns d before) entries → P entries) →
        ∀ entries, o.Stores engine (afterTurns d before) entries → P entries) :
    ∀ before later, turns = before ++ later → ∀ entries ∈ storedInTurns d before, P entries := by
  intro before
  induction hlength : before.length using Nat.strong_induction_on generalizing before with
  | _ n ih =>
    rintro later hturns entries ⟨earlier, engine, o, between, rfl, hstores⟩
    have hsplit : turns = earlier ++ (engine, .run o) :: (between ++ later) := by
      rw [hturns]
      simp
    refine hrun earlier engine o _ hsplit ?_ entries hstores
    intro found hfound
    have hshorter : earlier.length < n := by
      rw [← hlength]
      simp
    exact ih earlier.length hshorter earlier rfl _ hsplit found
      (hown earlier engine o _ hsplit found hfound)

/-! ### The turns of a history -/

lemma afterTurns_map (history : List Event) :
    afterTurns d (history.map (engine, ·)) = after engine d history := by
  simp [afterTurns, after, List.foldl_map]

lemma map_eq_append_run_iff {history : List Event} {before later : List Turn} {other : Engine} :
    history.map (engine, ·) = before ++ (other, .run o) :: later ↔
      ∃ before' later', history = before' ++ .run o :: later' ∧ other = engine ∧
        before = before'.map (engine, ·) ∧ later = later'.map (engine, ·) := by
  refine ⟨fun h => ?_, ?_⟩
  · obtain ⟨before', rest, rfl, rfl, hrest⟩ := List.map_eq_append_iff.mp h
    obtain ⟨e, later', rfl, hrun, rfl⟩ := List.map_eq_cons_iff.mp hrest
    obtain ⟨rfl, rfl⟩ := Prod.mk.inj hrun
    exact ⟨before', later', rfl, rfl, rfl, rfl⟩
  · rintro ⟨before', later', rfl, rfl, rfl, rfl⟩
    simp

lemma storedInTurns_map (history : List Event) :
    storedInTurns d (history.map (engine, ·)) = storedIn engine d history := by
  ext entries
  constructor
  · rintro ⟨_, _, o, _, hturns, hstores⟩
    obtain ⟨before, later, rfl, rfl, rfl, rfl⟩ := map_eq_append_run_iff.mp hturns
    rw [afterTurns_map] at hstores
    exact ⟨before, o, later, rfl, hstores⟩
  · rintro ⟨before, o, later, rfl, hstores⟩
    rw [← afterTurns_map] at hstores
    exact ⟨_, engine, o, _, map_eq_append_run_iff.mpr ⟨before, later, rfl, rfl, rfl, rfl⟩, hstores⟩

lemma onlyTurnsStore_map_iff {history : List Event} :
    OnlyTurnsStore d (history.map (engine, ·)) ↔ OnlyRunsStore engine d history := by
  constructor
  · rintro h before o later rfl hcache content entries hread hentries
    have hmem := h (before.map (engine, ·)) engine o (later.map (engine, ·)) (by simp) entries
      ⟨hcache, content, by rwa [afterTurns_map], hentries⟩
    rwa [storedInTurns_map] at hmem
  · rintro h _ _ o _ hturns entries ⟨hcache, content, hread, hentries⟩
    obtain ⟨before, later, rfl, rfl, rfl, rfl⟩ := map_eq_append_run_iff.mp hturns
    rw [afterTurns_map] at hread
    rw [storedInTurns_map]
    exact h before o later rfl hcache content entries hread hentries

/-! ## What runs store is sound -/

lemma RunOptions.openCache_entries_cases (o : RunOptions) (d : Disk) :
    (o.openCache d).cache.entries = [] ∨ o.Finds d (o.openCache d).cache.entries := by
  unfold openCache
  split
  · next hcache =>
    rw [RunCache.ofFile_eq]
    exact (Cache.foundIn_cases d (o.cacheFile d)).imp id fun hfound => ⟨hcache, hfound⟩
  · exact Or.inl rfl

lemma RunOptions.isSound_openCache
    (h : ∀ entries, o.Finds d entries → entries.AreSound engine hashed) :
    (o.openCache d).IsSound engine hashed o.settings := by
  have hentries : (o.openCache d).cache.entries.AreSound engine hashed := by
    rcases o.openCache_entries_cases d with hnone | hfound
    · rw [hnone]
      exact Keyed.areSound_nil
    · exact h _ hfound
  refine ⟨hentries, ?_⟩
  unfold openCache
  split
  · rw [RunCache.ofFile_eq]
    exact fun _ => rfl
  · have hoff : RunCache.off.IsSound engine hashed o.settings := RunCache.isSound_off
    exact hoff.settingsKey

/-- The settings of a run that lints files are among what it hashes. -/
lemma RunOptions.areHashed_settings {patterns paths : List String} {formatter : Formatter}
    (hcheck : o.check = .ok (.files patterns, formatter))
    (hpaths : o.resolve d patterns = .ok paths)
    (hsub : ∀ text, o.Hashes d text → text ∈ hashed) (hnull : o.settings.NullFree) :
    o.settings.AreHashed hashed :=
  ⟨hnull, hsub _ ⟨patterns, formatter, paths, hcheck, hpaths, Or.inl rfl⟩⟩

/-- **What a run stores is sound**, if what it has found is. -/
lemma RunOptions.Stores.areSound {entries : Keyed CachedResult} (h : o.Stores engine d entries)
    (hfix : engine.IgnoresFix) (hinj : Set.InjOn Digest.ofString hashed)
    (hsub : ∀ text, o.Hashes d text → text ∈ hashed) (hnull : o.settings.NullFree)
    (hopen : (o.openCache d).IsSound engine hashed o.settings) :
    entries.AreSound engine hashed := by
  obtain ⟨patterns, formatter, paths, hcheck, hpaths, -, rfl⟩ := h
  refine (lintEach_eq (s := ⟨o.openCache d, []⟩) hopen hfix hinj
    (areHashed_settings hcheck hpaths hsub hnull) ?_).2.entries
  intro path hpath text htext
  exact hsub text ⟨patterns, formatter, paths, hcheck, hpaths, Or.inr ⟨path, hpath, htext⟩⟩

/-- **What the runs of a history store is sound**, since each run passes soundness on. -/
theorem areSound_of_mem_storedIn (hfix : engine.IgnoresFix)
    (hinj : Set.InjOn Digest.ofString hashed) {history : List Event}
    (hsub : hashedIn engine d history ⊆ hashed)
    (hnull : ∀ o, Event.run o ∈ history → o.settings.NullFree)
    (hown : OnlyRunsStore engine d history) :
    ∀ before later, history = before ++ later → ∀ entries ∈ storedIn engine d before,
      entries.AreSound engine hashed := by
  rintro before later hhistory entries hentries
  rw [← storedInTurns_map] at hentries
  refine forall_mem_storedInTurns (onlyTurnsStore_map_iff.mpr hown) ?_ _ (later.map (engine, ·))
    (by rw [hhistory, List.map_append]) entries hentries
  intro _ _ o _ hturns hfound entries hstores
  obtain ⟨earlier, rest, hsplit, rfl, rfl, -⟩ := map_eq_append_run_iff.mp hturns
  rw [afterTurns_map] at hfound hstores
  refine hstores.areSound hfix hinj ?_ (hnull o (by simp [hsplit]))
    (RunOptions.isSound_openCache hfound)
  intro text htext
  exact hsub ⟨earlier, o, rest, hsplit, htext⟩

/-! ## A cache makes no difference -/

lemma lintInput_code (text : String) (name : Option String) :
    lintInput engine d o (.code text name) =
      ⟨(lintSource engine o.settings ⟨text, name⟩).map ([·]), d, [⟨text, name⟩]⟩ := by
  rfl

lemma lintInput_files (patterns : List String) :
    lintInput engine d o (.files patterns) =
      match o.resolve d patterns with
      | .error error => ⟨.error error, d, []⟩
      | .ok paths => lintFiles engine o.settings d paths (o.openCache d) := by
  rfl

/-- **What is linted with a sound cache is answered as without one.** -/
lemma lintInput_answer_eq (hfix : engine.IgnoresFix) (hinj : Set.InjOn Digest.ofString hashed)
    (hsub : ∀ text, o.Hashes d text → text ∈ hashed) (hnull : o.settings.NullFree)
    (hopen : (o.openCache d).IsSound engine hashed o.settings) {input : Input}
    {formatter : Formatter} (hcheck : o.check = .ok (input, formatter)) :
    (lintInput engine d o input).answer =
      (lintInput engine d { o with cache := false } input).answer := by
  cases input with
  | code text name => rw [lintInput_code, lintInput_code]
  | files patterns =>
    have hresolve : RunOptions.resolve { o with cache := false } d patterns =
        o.resolve d patterns := rfl
    rw [lintInput_files, lintInput_files, hresolve]
    cases hpaths : o.resolve d patterns with
    | error error => rfl
    | ok paths =>
      have hsettings := RunOptions.areHashed_settings hcheck hpaths hsub hnull
      have htexts : ∀ path ∈ paths, ∀ text, d.readText path = .ok text → text ∈ hashed := by
        intro path hpath text htext
        exact hsub text ⟨patterns, formatter, paths, hcheck, hpaths, Or.inr ⟨path, hpath, htext⟩⟩
      have hcached := lintEach_eq (s := ⟨o.openCache d, []⟩) hopen hfix hinj hsettings htexts
      have hfresh := lintEach_eq (s := ⟨RunCache.off, []⟩) RunCache.isSound_off hfix hinj
        hsettings htexts
      have hoff : RunOptions.openCache { o with cache := false } d = RunCache.off := rfl
      simp only [lintFiles, hoff]
      rw [hcached.1, hfresh.1]

/-- **A run with a sound cache answers as one without.** -/
lemma run_answer_eq (hfix : engine.IgnoresFix) (hinj : Set.InjOn Digest.ofString hashed)
    (hsub : ∀ text, o.Hashes d text → text ∈ hashed) (hnull : o.settings.NullFree)
    (hopen : (o.openCache d).IsSound engine hashed o.settings) :
    (run engine d o).answer = (run engine d { o with cache := false }).answer := by
  have hcheckOff : RunOptions.check { o with cache := false } = o.check := rfl
  unfold run
  rw [hcheckOff]
  cases hcheck : o.check with
  | error error => rfl
  | ok pair =>
    simp only
    rw [lintInput_answer_eq hfix hinj hsub hnull hopen hcheck]

/-- **Caching is transparent.**  After any history in which nobody but runs has written caches, a
run with its cache answers as the same run without it. -/
theorem cached_run_answer_eq (hfix : engine.IgnoresFix) (history : List Event)
    (hcache : o.cache = true)
    (hread : ∀ o', Event.run o' ∈ history ++ [.run o] → ∃ text, RunOptions.read text = .ok o')
    (hinj : Set.InjOn Digest.ofString (hashedIn engine d (history ++ [.run o])))
    (hown : OnlyRunsStore engine d (history ++ [.run o])) :
    (run engine (after engine d history) o).answer =
      (run engine (after engine d history) { o with cache := false }).answer := by
  have hnull : ∀ o', Event.run o' ∈ history ++ [.run o] → o'.settings.NullFree := by
    intro o' ho'
    obtain ⟨text, htext⟩ := hread o' ho'
    exact RunOptions.nullFree_of_read htext
  refine run_answer_eq hfix hinj ?_ (hnull o (by simp)) ?_
  · intro text htext
    exact ⟨history, o, [], rfl, htext⟩
  · refine RunOptions.isSound_openCache ?_
    rintro entries ⟨-, content, hcontent, hentries⟩
    have hmem := hown history o [] rfl hcache content entries hcontent hentries
    exact areSound_of_mem_storedIn hfix hinj (le_refl _) hnull hown history [.run o] rfl entries
      hmem

/-! ## Histories without foreign caches -/

lemma lintEach_isEnabled (settings : EngineSettings) (paths : List String) (s : LintState) :
    (lintEach engine settings d paths s).2.cache.cache.isEnabled = s.cache.cache.isEnabled :=
  (isGrownFrom_lintEach engine settings d s.cache paths s.asked).isEnabled

lemma RunCache.allContents_flush {P : ByteArray → Prop} {c : RunCache} (h : d.AllContents P)
    (hc : c.cache.isEnabled = true → P (Cache.fileContent c.cache.entries)) :
    (c.flush d).AllContents P := by
  exact Cache.save_keeps (fun parent _ => h.makeDirs parent)
    (fun henabled _ _ hmade hwrite => hmade.write (hc henabled) hwrite) h

lemma run_allContents {P : ByteArray → Prop} (h : d.AllContents P)
    (hstores : ∀ entries, o.Stores engine d entries → P (Cache.fileContent entries)) :
    (run engine d o).disk.AllContents P := by
  unfold run
  cases hcheck : o.check with
  | error error => exact h
  | ok pair =>
    obtain ⟨input, formatter⟩ := pair
    show (lintInput engine d o input).disk.AllContents P
    cases input with
    | code text name => exact h
    | files patterns =>
      rw [lintInput_files]
      cases hpaths : o.resolve d patterns with
      | error error => exact h
      | ok paths =>
        refine RunCache.allContents_flush h ?_
        intro henabled
        refine hstores _ ⟨patterns, formatter, paths, hcheck, hpaths, ?_, rfl⟩
        rw [lintEach_isEnabled] at henabled
        by_contra hcache
        simp [RunOptions.openCache, hcache, RunCache.off, Cache.off] at henabled

/-- The event brings no cache onto the disk, unless it is a run. -/
def Event.BringsNoCache : Event → Prop
  | .write _ content => Cache.ofFileContent? content = none
  | _ => True

lemma storedInTurns_mono (turns : List Turn) (turn : Turn) :
    storedInTurns d turns ⊆ storedInTurns d (turns ++ [turn]) := by
  rintro entries ⟨before, engine, o, later, rfl, hstores⟩
  exact ⟨before, engine, o, later ++ [turn], by simp, hstores⟩

/-- Every cache on the disk is one that a run has stored.  By induction on the turns. -/
lemma allContents_afterTurns
    (hd : d.AllContents fun content => Cache.ofFileContent? content = none) {turns : List Turn}
    (h : ∀ turn ∈ turns, turn.2.BringsNoCache) :
    (afterTurns d turns).AllContents fun content =>
      ∀ entries, Cache.ofFileContent? content = some entries → entries ∈ storedInTurns d turns := by
  induction turns using List.reverseRecOn with
  | nil =>
    refine hd.mono ?_
    intro content hcontent entries hentries
    rw [hcontent] at hentries
    simp at hentries
  | append_singleton turns turn ih =>
    have hbefore := (ih fun turn' hturn' => h turn' (by simp [hturn'])).mono
      (Q := fun content => ∀ entries, Cache.ofFileContent? content = some entries →
        entries ∈ storedInTurns d (turns ++ [turn]))
      fun content hcontent entries hentries =>
        storedInTurns_mono turns turn (hcontent entries hentries)
    have hafter :
        afterTurns d (turns ++ [turn]) = turn.2.disk turn.1 (afterTurns d turns) := by
      simp [afterTurns]
    rw [hafter]
    obtain ⟨engine, e⟩ := turn
    cases e with
    -- A run writes what it stores, and nothing else.
    | run o =>
      refine run_allContents hbefore ?_
      intro entries hstores found hfound
      rw [Cache.ofFileContent?_fileContent, Option.some.injEq] at hfound
      subst hfound
      exact ⟨turns, engine, o, [], rfl, hstores⟩
    | write path content =>
      have hno : Cache.ofFileContent? content = none := h (engine, .write path content) (by simp)
      show ((Disk.write _ path content).toOption.getD _).AllContents _
      cases hwrite : (afterTurns d turns).write path content with
      | error error => exact hbefore
      | ok d' =>
        refine hbefore.write ?_ hwrite
        intro entries hentries
        rw [hno] at hentries
        simp at hentries
    | makeDirs path => exact hbefore.makeDirs path
    | remove path =>
      show ((Disk.remove _ path).toOption.getD _).AllContents _
      cases hremove : (afterTurns d turns).remove path with
      | error error => exact hbefore
      | ok d' => exact hbefore.remove hremove

/-- **Without foreign caches only runs store.**  It is enough that the disk holds no cache to begin
with and that no one but runs writes the bytes of one. -/
theorem onlyTurnsStore_of_bringsNoCache
    (hd : d.AllContents fun content => Cache.ofFileContent? content = none) {turns : List Turn}
    (h : ∀ turn ∈ turns, turn.2.BringsNoCache) : OnlyTurnsStore d turns := by
  rintro before engine o later rfl entries ⟨-, content, hread, hentries⟩
  have hbefore : ∀ turn ∈ before, turn.2.BringsNoCache := fun turn hturn => h turn (by simp [hturn])
  exact (allContents_afterTurns hd hbefore).read hread entries hentries

lemma onlyRunsStore_of_bringsNoCache
    (hd : d.AllContents fun content => Cache.ofFileContent? content = none)
    {history : List Event} (h : ∀ e ∈ history, e.BringsNoCache) :
    OnlyRunsStore engine d history := by
  refine onlyTurnsStore_map_iff.mp (onlyTurnsStore_of_bringsNoCache hd ?_)
  simpa using h

/-! ## A run and its repetition -/

lemma Engine.structural_ignoresFix : Engine.structural.IgnoresFix := by
  intro source settings fix
  rfl

/-- A directory with one stylesheet. -/
def oneFile : Disk := ⟨.dir [("a", .file "a{}".toUTF8)], []⟩

/-- The options that lint it with a cache. -/
def oneFileOptions : RunOptions := { files := some (.one "a"), cache := true }

/-- Whether options are those.  Options as such cannot be compared, since they can hold a function.
-/
def isOneFileOptions : RunOptions → Bool
  | ⟨some (.one "a"), none, none, ⟨none, none, none, none, none, none, false, false, false⟩, none,
    none, [], false, true, none, none⟩ => true
  | _ => false

lemma eq_oneFileOptions {o : RunOptions} (h : isOneFileOptions o = true) : o = oneFileOptions := by
  unfold isOneFileOptions at h
  split at h
  · rfl
  · simp at h

lemma read_oneFileOptions :
    RunOptions.read "\x7bcache:true files:'a'\x7d" = .ok oneFileOptions := by
  have h :
      (RunOptions.read "\x7bcache:true files:'a'\x7d").toOption.any isOneFileOptions = true := by
    decide +kernel
  obtain ⟨o, hread, ho⟩ := (Option.any_eq_true _ _).1 h
  rw [eq_ok_of_toOption hread, eq_oneFileOptions ho]

/-- What a run hashes that finds the stylesheet. -/
lemma eq_of_hashes_oneFile {d : Disk} {text : String}
    (hpaths : (oneFileOptions.resolve d ["a"]).toOption = some ["/a"])
    (htext : (d.readText "/a").toOption = some "a{}") (h : oneFileOptions.Hashes d text) :
    text = oneFileOptions.settings.keyText ∨ text = "a{}" := by
  obtain ⟨patterns, formatter, paths, hcheck, hresolve, hcase⟩ := h
  obtain ⟨given, hinput⟩ : ∃ given, oneFileOptions.check = .ok (.files ["a"], given) := ⟨_, rfl⟩
  rw [hinput, Except.ok.injEq, Prod.mk.injEq, Input.files.injEq] at hcheck
  obtain ⟨rfl, -⟩ := hcheck
  rw [eq_ok_of_toOption hpaths, Except.ok.injEq] at hresolve
  subst hresolve
  rcases hcase with hkey | ⟨path, hpath, hread⟩
  · exact Or.inl hkey
  · rw [List.mem_singleton.1 hpath, eq_ok_of_toOption htext, Except.ok.injEq] at hread
    exact Or.inr hread.symm

lemma allContents_oneFile :
    oneFile.AllContents fun content => Cache.ofFileContent? content = none := by
  refine .dir ?_
  intro name node hnode
  simp only [Keyed.find?] at hnode
  split at hnode
  · rw [Option.some.injEq] at hnode
    subst hnode
    exact .file (by decide +kernel)
  · simp at hnode

lemma digest_oneFile_ne :
    Digest.ofString oneFileOptions.settings.keyText ≠ Digest.ofString "a{}" := by
  intro h
  have hchars := congrArg String.toList h
  simp only [Digest.ofString, String.toList_ofList] at hchars
  revert hchars
  decide +kernel

/-- The second of two runs takes the result from the cache, and answers as without it. -/
theorem cached_run_answer_eq_repeated :
    (run Engine.structural (after Engine.structural oneFile [.run oneFileOptions])
        oneFileOptions).answer =
      (run Engine.structural (after Engine.structural oneFile [.run oneFileOptions])
        { oneFileOptions with cache := false }).answer := by
  refine cached_run_answer_eq Engine.structural_ignoresFix [.run oneFileOptions] rfl ?_ ?_ ?_
  · intro o ho
    have hsame : o = oneFileOptions := by simpa using ho
    exact ⟨_, hsame ▸ read_oneFileOptions⟩
  -- two texts are hashed, those of the stylesheet and of the settings
  · have hsub : ∀ text ∈ hashedIn Engine.structural oneFile
        ([.run oneFileOptions] ++ [.run oneFileOptions]),
        text = oneFileOptions.settings.keyText ∨ text = "a{}" := by
      rintro text ⟨before, o, later, hhistory, hhashes⟩
      rcases before with - | ⟨e, - | ⟨e', before⟩⟩
      · simp only [List.cons_append, List.nil_append, List.cons.injEq, Event.run.injEq] at hhistory
        obtain ⟨rfl, -⟩ := hhistory
        exact eq_of_hashes_oneFile (by decide +kernel) (by decide +kernel) hhashes
      · simp only [List.cons_append, List.nil_append, List.cons.injEq, Event.run.injEq] at hhistory
        obtain ⟨rfl, rfl, -⟩ := hhistory
        exact eq_of_hashes_oneFile (by decide +kernel) (by decide +kernel) hhashes
      · simp at hhistory
    intro x hx y hy hxy
    rcases hsub x hx with rfl | rfl
    · rcases hsub y hy with rfl | rfl
      · rfl
      · exact absurd hxy digest_oneFile_ne
    · rcases hsub y hy with rfl | rfl
      · exact absurd hxy.symm digest_oneFile_ne
      · rfl
  · refine onlyRunsStore_of_bringsNoCache allContents_oneFile ?_
    intro e he
    have hsame : e = .run oneFileOptions := by simpa using he
    rw [hsame]
    trivial

end SheetLint
