import SheetLint.Engine.Structural
import SheetLint.Proofs.Disk.Making
import SheetLint.Proofs.Lint.Alone

/-!
# What a run leaves in its cache file

A run loads its cache file once and writes it back once, also when it ends early.  In between, the
cache is a map in memory.  So the file holds afterwards what it held before, with a new entry for
each file that the run got done and for which no stored result did.

`Cache.load_save` is the round trip through the file, `load_lintFiles` the account of the entries.
What a save can do is said once, by `Cache.save_cases`: the directories cannot be made, the file
cannot be written, or it is written.  What all of these keep, a save keeps (`Cache.save_keeps`).

A save succeeds where the file can be written once the directories around it are made,
`Cache.CanWrite`, and leaves a disk that has grown.  What cannot be decoded counts as an empty
cache, so `Cache.foundIn` is a map in any case.
-/

namespace SheetLint

namespace Cache

/-- The entries that a run finds in a cache file.  What holds no cache counts as empty. -/
def foundIn (d : Disk) (file : String) : Keyed CachedResult :=
  match load { file := file } d with
  | .ok cache => cache.entries
  | .error _ => []

lemma foundIn_cases (d : Disk) (file : String) :
    foundIn d file = [] ∨ ∃ content, d.read file = .ok content ∧
      ofFileContent? content = some (foundIn d file) := by
  unfold foundIn
  cases hload : load { file := file } d with
  | error error => exact Or.inl rfl
  | ok cache =>
    unfold load at hload
    split at hload
    · cases hload
      exact Or.inl rfl
    · split at hload
      · cases hload
      · next content hread =>
        split at hload
        · next entries hentries =>
          cases hload
          exact Or.inr ⟨content, hread, hentries⟩
        · cases hload

lemma eq_of_load {c c' : Cache} {d : Disk} (h : c.load d = .ok c') :
    c' = { c with entries := c'.entries } := by
  unfold load at h
  split at h
  · cases h
    rfl
  · split at h
    · exact nomatch h
    · split at h
      · cases h
        rfl
      · exact nomatch h

variable {c : Cache} {d : Disk}

lemma makeDirOf_keeps {P : Disk → Prop} {file : String}
    (hdirs : ∀ parent, Path.parent? file = some parent → P (d.makeDirs parent).disk) (h : P d) :
    P (makeDirOf d file).disk := by
  unfold makeDirOf
  cases hparent : Path.parent? file with
  | none => exact h
  | some parent => exact hdirs parent hparent

lemma hasWorkingDir_makeDirOf (hd : d.HasWorkingDir) (file : String) :
    (makeDirOf d file).disk.HasWorkingDir :=
  makeDirOf_keeps (fun parent _ => hd.makeDirs parent) hd

lemma save_of_not_isEnabled (h : c.isEnabled = false) (d : Disk) : (c.save d).disk = d := by
  unfold save
  rw [h]
  rfl

/-- What a save can do, if the cache is switched on. -/
lemma save_cases (henabled : c.isEnabled = true) :
    (∃ error, (makeDirOf d c.file).answer = .error error ∧
      c.save d = ⟨.error error, (makeDirOf d c.file).disk⟩) ∨
    (∃ error, (makeDirOf d c.file).disk.write c.file (fileContent c.entries) = .error error ∧
      c.save d = ⟨.error error, (makeDirOf d c.file).disk⟩) ∨
    ∃ saved, (makeDirOf d c.file).disk.write c.file (fileContent c.entries) = .ok saved ∧
      c.save d = ⟨.ok (), saved⟩ := by
  unfold save
  rw [if_neg (by simp [henabled])]
  rcases makeDirOf d c.file with ⟨error | _, made⟩
  · exact Or.inl ⟨error, rfl, rfl⟩
  · right
    cases hwrite : made.write c.file (fileContent c.entries) with
    | error error => exact Or.inl ⟨error, rfl, by simp only [hwrite]⟩
    | ok saved => exact Or.inr ⟨saved, rfl, by simp only [hwrite]⟩

/-- **What making directories and writing keep, a save keeps.** -/
lemma save_keeps {P : Disk → Prop}
    (hdirs : ∀ parent, Path.parent? c.file = some parent → P (d.makeDirs parent).disk)
    (hwrite : c.isEnabled = true → ∀ made saved, P made →
      made.write c.file (fileContent c.entries) = .ok saved → P saved)
    (h : P d) : P (c.save d).disk := by
  cases henabled : c.isEnabled with
  | false => rwa [save_of_not_isEnabled henabled]
  | true =>
    have hmade : P (makeDirOf d c.file).disk := makeDirOf_keeps hdirs h
    rcases save_cases henabled with
      ⟨error, -, hsave⟩ | ⟨error, -, hsave⟩ | ⟨saved, hwritten, hsave⟩ <;> rw [hsave]
    · exact hmade
    · exact hmade
    · exact hwrite henabled _ saved hmade hwritten

lemma exists_write_of_save (hd : d.HasWorkingDir) (henabled : c.isEnabled = true)
    (h : (c.save d).answer = .ok ()) :
    ∃ made : Disk, made.HasWorkingDir ∧
      made.write c.file (fileContent c.entries) = .ok (c.save d).disk := by
  rcases save_cases henabled with
    ⟨error, -, hsave⟩ | ⟨error, -, hsave⟩ | ⟨saved, hwrite, hsave⟩
  · rw [hsave] at h
    exact nomatch h
  · rw [hsave] at h
    exact nomatch h
  · rw [hsave]
    exact ⟨_, hasWorkingDir_makeDirOf hd c.file, hwrite⟩

lemma makeDirOf_of_target (hd : d.HasWorkingDir) {file : String} {asLink : Bool}
    {t : Disk.Target} (h : d.target file asLink = .ok t) : makeDirOf d file = ⟨.ok (), d⟩ := by
  unfold makeDirOf
  cases hparent : Path.parent? file with
  | none => rfl
  | some parent =>
    by_cases hempty : parent = ""
    · subst hempty
      exact d.makeDirsFrom_empty _
    · exact Disk.makeDirs_of_isDir (Path.parent?_spelling hparent)
        (Disk.isDir_parent hd hparent hempty h)

/-- What a save starts from, once the directories are made. -/
structure CanWrite (d : Disk) (file : String) (made : Disk) : Prop where
  makeDirOf_eq : makeDirOf d file = ⟨.ok (), made⟩
  growsTo : d.GrowsTo made
  target : ∃ t, made.target file false = .ok t
  not_isDir : made.isDir file = false

/-- Where a path leads to a file, or to a place for one, nothing has to be made. -/
lemma canWrite_of_target (hd : d.HasWorkingDir) {file : String} {t : Disk.Target}
    (h : d.target file false = .ok t) (hdir : d.isDir file = false) : CanWrite d file d :=
  ⟨makeDirOf_of_target hd h, .refl d, ⟨t, h⟩, hdir⟩

/-- **A save writes the file.** -/
lemma save_of_canWrite (hd : d.HasWorkingDir) (henabled : c.isEnabled = true) {made : Disk}
    (h : CanWrite d c.file made) :
    ∃ saved, c.save d = ⟨.ok (), saved⟩ ∧ d.GrowsTo saved ∧ saved.isDir c.file = false := by
  have hmade := hd.growsTo h.growsTo
  obtain ⟨t, htarget⟩ := h.target
  obtain ⟨saved, hwrite⟩ :=
    Disk.exists_write_of_target hmade htarget h.not_isDir (fileContent c.entries)
  refine ⟨saved, ?_, h.growsTo.trans (Disk.growsTo_of_write hwrite), ?_⟩
  · rw [save, if_neg (by simp [henabled])]
    simp only [h.makeDirOf_eq, hwrite]
  · obtain ⟨place, hplace⟩ := hmade.target_write hwrite
    exact Disk.isDir_eq_of_target hplace

/-- **A cache that has been saved can be loaded.** -/
theorem load_save (hd : d.HasWorkingDir) (henabled : c.isEnabled = true)
    (h : (c.save d).answer = .ok ()) :
    load { file := c.file } (c.save d).disk = .ok { file := c.file, entries := c.entries } := by
  obtain ⟨made, hmade, hwrite⟩ := exists_write_of_save hd henabled h
  have hread := Disk.read_write hmade hwrite
  have hexists : (c.save d).disk.pathExists c.file = true := by
    obtain ⟨place, htarget⟩ := Disk.exists_target_of_read hread
    rw [Disk.pathExists, Disk.node, htarget]
    rfl
  unfold load
  simp only [hexists, hread, ofFileContent?_fileContent, Bool.not_true, Bool.or_false,
    Bool.false_eq_true, if_false]

end Cache

namespace RunCache

lemma ofFile_eq (d : Disk) (file settingsKey : String) (fixes : Bool) :
    ofFile d file settingsKey fixes =
      ⟨{ file := file, entries := Cache.foundIn d file }, settingsKey, fixes⟩ := by
  unfold ofFile Cache.foundIn
  cases hload : Cache.load { file := file } d with
  | error error => simp only [hload]
  | ok cache =>
    simp only [hload]
    rw [Cache.eq_of_load hload]

end RunCache

/-- **Nothing is lost from a cache file and nothing is invented.**  If the cache can be written back
after files have been linted, its file holds what it held before, apart from the files that the run
got done before the first fatal one and for which no stored result did: these have a new entry.  The
file has no path twice if it had none before. -/
theorem load_lintFiles (engine : Engine) (settings : EngineSettings) {d : Disk}
    (hd : d.HasWorkingDir) {paths : List String} (hpaths : paths.Nodup) (file settingsKey : String)
    (fixes : Bool)
    (hsave : ((lintEach engine settings d paths
      ⟨.ofFile d file settingsKey fixes, []⟩).2.cache.cache.save d).answer = .ok ()) :
    ∃ stored, Cache.load { file := file }
        (lintFiles engine settings d paths (.ofFile d file settingsKey fixes)).disk =
          .ok { file := file, entries := stored } ∧
      ((Cache.foundIn d file).Sorted → stored.Sorted) ∧
      ∀ path, stored.find? path =
        if path ∈ doneFiles engine settings d (.ofFile d file settingsKey fixes) paths then
          (newCached? engine settings d (.ofFile d file settingsKey fixes) path).or
            ((Cache.foundIn d file).find? path)
        else (Cache.foundIn d file).find? path := by
  rw [RunCache.ofFile_eq] at hsave ⊢
  set opened : RunCache := ⟨{ file := file, entries := Cache.foundIn d file }, settingsKey, fixes⟩
  have hgrown := isGrownFrom_lintEach engine settings d opened paths []
  have hload := Cache.load_save hd hgrown.isEnabled hsave
  rw [hgrown.file] at hload
  exact ⟨_, hload, hgrown.sorted, find?_lintEach hpaths⟩

/-- The second of three files is missing: the first one is stored, the third one is not. -/
theorem load_lintFiles_missing :
    ∃ stored, Cache.load { file := "/cache" }
        (lintFiles Engine.structural {} twoSheets ["/a", "/missing", "/b"]
          (.ofFile twoSheets "/cache" "key" false)).disk =
          .ok { file := "/cache", entries := stored } ∧
      stored.Sorted ∧ (stored.find? "/a").isSome = true ∧ stored.find? "/b" = none := by
  have hd : twoSheets.HasWorkingDir := ⟨_, rfl⟩
  have hpaths : ["/a", "/missing", "/b"].Nodup := by decide
  obtain ⟨stored, hload, hsorted, hentries⟩ := load_lintFiles Engine.structural {} hd hpaths
    "/cache" "key" false (eq_ok_of_toOption (by decide +kernel))
  have hempty : Cache.foundIn twoSheets "/cache" = [] := by decide +kernel
  refine ⟨stored, hload, hsorted ?_, ?_, ?_⟩
  · rw [hempty]
    exact List.Pairwise.nil
  · rw [hentries]
    decide +kernel
  · rw [hentries]
    decide +kernel

end SheetLint
