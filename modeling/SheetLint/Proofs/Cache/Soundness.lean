import Mathlib.Data.Set.Function
import SheetLint.Lint
import SheetLint.Proofs.Engine.Settings

/-!
# Stored results are results of the engine

An entry is sound when the engine gives its result for some text and some settings that the entry's
digests stand for.  A cache of sound entries can be asked in place of the engine, as long as no two
of the texts that have been hashed share a digest: what it gives out is what the engine would say
(`RunCache.IsSound.check`), and what it takes in is sound again (`RunCache.IsSound.record`).  So
linting with such a cache answers what `lintAllFresh` does, which asks no cache (`lintEach_eq`).

The texts that count are collected in the set `hashed`; nothing is supposed of digests in general.
Settings are hashed by their key text, which leaves fixing out.  So the engine must not pay
attention to fixing, `Engine.IgnoresFix`, and the settings have to be such that the key text tells
them apart, as all settings that are read do.
-/

namespace SheetLint

/-- It makes no difference to the engine whether it is told to fix. -/
def Engine.IgnoresFix (engine : Engine) : Prop :=
  ∀ source (settings : EngineSettings) fix,
    engine source { settings with fix := fix } = engine source settings

/-- The key text of the settings is among the texts that were hashed, and the settings are such that
it tells them apart. -/
structure EngineSettings.AreHashed (hashed : Set String) (s : EngineSettings) : Prop where
  nullFree : s.NullFree
  keyText_mem : s.keyText ∈ hashed

/-- The entry is the engine's result on a file, for a text and settings that were hashed. -/
def CachedResult.IsSound (engine : Engine) (hashed : Set String) (path : String)
    (e : CachedResult) : Prop :=
  ∃ text ∈ hashed, ∃ settings : EngineSettings, settings.AreHashed hashed ∧
    e.contentDigest = Digest.ofString text ∧ e.settingsKey = settings.key ∧
    lintSource engine settings ⟨text, some path⟩ = .ok e.result

/-- Every entry is sound for its file. -/
def Keyed.AreSound (engine : Engine) (hashed : Set String) (entries : Keyed CachedResult) : Prop :=
  ∀ path e, entries.find? path = some e → e.IsSound engine hashed path

variable {engine : Engine} {hashed : Set String}

lemma lintSource_fix (h : engine.IgnoresFix) {s t : EngineSettings}
    (hst : { s with fix := false } = { t with fix := false }) (source : Source) :
    lintSource engine s source = lintSource engine t source := by
  unfold lintSource
  rw [← h source s false, ← h source t false, hst]

/-- **An entry that fits is the engine's answer.**  Its digests then are those of the text and the
settings in hand, so it was made from these. -/
lemma CachedResult.IsSound.lintSource_eq {path text : String} {e : CachedResult}
    {settings : EngineSettings} (h : e.IsSound engine hashed path) (hfix : engine.IgnoresFix)
    (hinj : Set.InjOn Digest.ofString hashed) (htext : text ∈ hashed)
    (hsettings : settings.AreHashed hashed)
    (hvalid : e.isValid (Digest.ofString text) settings.key = true) :
    lintSource engine settings ⟨text, some path⟩ = .ok e.result := by
  obtain ⟨text', htext', settings', hsettings', hcontent, hkey, hresult⟩ := h
  simp only [isValid, Bool.and_eq_true, beq_iff_eq] at hvalid
  obtain rfl : text' = text := hinj htext' htext (hcontent.symm.trans hvalid.1)
  have hkeyText : settings'.keyText = settings.keyText :=
    hinj hsettings'.keyText_mem hsettings.keyText_mem (hkey.symm.trans hvalid.2)
  have hsame := EngineSettings.eq_of_keyText_eq hsettings'.nullFree hsettings.nullFree hkeyText
  rw [← lintSource_fix hfix hsame, hresult]

lemma Keyed.areSound_nil : AreSound engine hashed [] := by
  intro path e h
  simp [find?] at h

lemma Keyed.AreSound.insert {entries : Keyed CachedResult} (h : AreSound engine hashed entries)
    {path : String} {e : CachedResult} (he : e.IsSound engine hashed path) :
    AreSound engine hashed (entries.insert path e) := by
  intro other e' he'
  by_cases hpath : other = path
  · subst hpath
    rw [find?_insert_self, Option.some.injEq] at he'
    subst he'
    exact he
  · rw [find?_insert_of_ne hpath] at he'
    exact h other e' he'

/-! ### A cache in the hands of a run -/

/-- The cache of a run holds sound entries, and asks for those of the run's settings. -/
structure RunCache.IsSound (engine : Engine) (hashed : Set String) (settings : EngineSettings)
    (c : RunCache) : Prop where
  entries : c.cache.entries.AreSound engine hashed
  settingsKey : c.cache.isEnabled = true → c.settingsKey = settings.key

variable {settings : EngineSettings} {c : RunCache}

lemma RunCache.isSound_off : RunCache.off.IsSound engine hashed settings :=
  ⟨Keyed.areSound_nil, fun h => absurd h (by simp [off, Cache.off])⟩

lemma RunCache.IsSound.check (h : c.IsSound engine hashed settings) (hfix : engine.IgnoresFix)
    (hinj : Set.InjOn Digest.ofString hashed) (hsettings : settings.AreHashed hashed)
    {path text : String} (htext : text ∈ hashed)
    {result : SourceResult} (hcheck : c.check path (Digest.ofString text) = some result) :
    lintSource engine settings ⟨text, some path⟩ = .ok result := by
  unfold RunCache.check at hcheck
  split at hcheck
  · simp at hcheck
  · obtain ⟨e, hvalid, rfl⟩ := Option.map_eq_some_iff.1 hcheck
    unfold Cache.getValid? at hvalid
    obtain ⟨hget, hfits⟩ := Option.filter_eq_some_iff.1 hvalid
    unfold Cache.get? at hget
    split at hget
    · rename_i henabled
      rw [h.settingsKey henabled] at hfits
      exact (h.entries path e hget).lintSource_eq hfix hinj htext hsettings hfits
    · simp at hget

lemma RunCache.IsSound.record (h : c.IsSound engine hashed settings)
    (hsettings : settings.AreHashed hashed)
    {path text : String} (htext : text ∈ hashed)
    {result : SourceResult}
    (hresult : lintSource engine settings ⟨text, some path⟩ = .ok result) :
    (c.record path (Digest.ofString text) result).IsSound engine hashed settings := by
  unfold RunCache.record Cache.insert
  split
  · rename_i henabled
    refine ⟨h.entries.insert ⟨text, htext, settings, hsettings, rfl, ?_, hresult⟩, h.settingsKey⟩
    exact h.settingsKey henabled
  · exact ⟨h.entries, h.settingsKey⟩

/-! ### Linting with a cache -/

/-- **One file.**  With a sound cache it gets the engine's answer, and the cache stays sound. -/
lemma lintText_eq {s : LintState} (h : s.cache.IsSound engine hashed settings)
    (hfix : engine.IgnoresFix) (hinj : Set.InjOn Digest.ofString hashed)
    (hsettings : settings.AreHashed hashed)
    {path text : String} (htext : text ∈ hashed) :
    (lintText engine settings path text s).1 = lintSource engine settings ⟨text, some path⟩ ∧
      (lintText engine settings path text s).2.cache.IsSound engine hashed settings := by
  unfold lintText
  simp only
  split
  · rename_i result hcheck
    exact ⟨(h.check hfix hinj hsettings htext hcheck).symm, h⟩
  · split
    · rename_i result hresult
      exact ⟨hresult.symm, h.record hsettings htext hresult⟩
    · rename_i error hresult
      exact ⟨hresult.symm, h⟩

/-- The engine's answer on a file, no cache being asked. -/
def lintFresh (engine : Engine) (settings : EngineSettings) (d : Disk) (path : String) :
    Except RunError SourceResult :=
  match d.readText path with
  | .ok text => lintSource engine settings ⟨text, some path⟩
  | .error error => .error (.inputFile path error)

/-- The engine's answers on files, up to the first one without a result. -/
def lintAllFresh (engine : Engine) (settings : EngineSettings) (d : Disk) (paths : List String) :
    Except RunError (List SourceResult) :=
  paths.mapM (lintFresh engine settings d)

lemma lintFile_eq {s : LintState} (h : s.cache.IsSound engine hashed settings)
    (hfix : engine.IgnoresFix) (hinj : Set.InjOn Digest.ofString hashed)
    (hsettings : settings.AreHashed hashed) {d : Disk} {path : String}
    (htext : ∀ text, d.readText path = .ok text → text ∈ hashed) :
    (lintFile engine settings d path s).1 = lintFresh engine settings d path ∧
      (lintFile engine settings d path s).2.cache.IsSound engine hashed settings := by
  unfold lintFile lintFresh
  cases hread : d.readText path with
  | ok text => exact lintText_eq h hfix hinj hsettings (htext text hread)
  | error error => exact ⟨rfl, h⟩

/-- **A list of files.**  By induction on it, the cache being sound for each file in turn. -/
theorem lintEach_eq {s : LintState} (h : s.cache.IsSound engine hashed settings)
    (hfix : engine.IgnoresFix) (hinj : Set.InjOn Digest.ofString hashed)
    (hsettings : settings.AreHashed hashed) {d : Disk} {paths : List String}
    (htext : ∀ path ∈ paths, ∀ text, d.readText path = .ok text → text ∈ hashed) :
    (lintEach engine settings d paths s).1 = lintAllFresh engine settings d paths ∧
      (lintEach engine settings d paths s).2.cache.IsSound engine hashed settings := by
  induction paths generalizing s with
  | nil => exact ⟨rfl, h⟩
  | cons path paths ih =>
    have hfile := lintFile_eq h hfix hinj hsettings (htext path List.mem_cons_self)
    unfold lintAllFresh
    rw [List.mapM_cons, ← hfile.1]
    unfold lintEach
    cases hone : lintFile engine settings d path s with
    | mk answer s' =>
      rw [hone] at hfile
      cases answer with
      | error error => exact ⟨rfl, hfile.2⟩
      | ok result =>
        have hrest := ih hfile.2 fun p hp => htext p (List.mem_cons_of_mem path hp)
        simp only
        refine ⟨?_, hrest.2⟩
        rw [hrest.1]
        unfold lintAllFresh
        cases paths.mapM (lintFresh engine settings d) <;> rfl

end SheetLint
