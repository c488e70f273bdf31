import Mathlib.Logic.Function.Basic
import SheetLint.Proofs.Cache.Persistence

/-!
# Caches that share a file

Any number of caches can be kept in one file.  Each has its entries in memory, and what the others
do to theirs is nothing to it until it loads the file.

Two statements about any sequence of calls carry everything.  The caches and the file are one map
each: `CacheMaps` says what every call makes of these maps, and the entries of the caches follow it
(`SharedCache.maps_after`).  Of a save the maps only need to be told whether the disk has taken it.
And the file holds the entries of the latest save that succeeded, unless someone else has spoilt it
since (`SharedCache.storedIn_after`).

A save that fails cannot break either of them.  It may leave directories behind, and with them the
path may lead somewhere else than before; but where a save fails, nothing can be read at the path,
neither before nor afterwards (`Cache.storedIn_of_save_eq_error`, `Cache.storedIn_save`).
-/

namespace SheetLint

namespace Cache

/-- The entries that a file holds, if it holds a cache. -/
def storedIn (d : Disk) (file : String) : Option (Keyed CachedResult) :=
  (d.read file).toOption.bind ofFileContent?

variable {c : Cache} {d : Disk}

lemma storedIn_write {d' : Disk} (hd : d.HasWorkingDir) {file : String} {content : ByteArray}
    (h : d.write file content = .ok d') : storedIn d' file = ofFileContent? content := by
  rw [storedIn, Disk.read_write hd h]
  rfl

/-- What is stored in a file is at a path that leads to it. -/
lemma exists_target_of_storedIn {file : String} {entries : Keyed CachedResult}
    (h : storedIn d file = some entries) : ∃ place content,
      d.target file false = .ok (.found place (.file content)) := by
  obtain ⟨content, hread, -⟩ := Option.bind_eq_some_iff.mp h
  obtain ⟨place, htarget⟩ := Disk.exists_target_of_read (eq_ok_of_toOption hread)
  exact ⟨place, content, htarget⟩

lemma canWrite_of_storedIn (hd : d.HasWorkingDir) {file : String}
    {entries : Keyed CachedResult} (h : storedIn d file = some entries) : CanWrite d file d := by
  obtain ⟨place, old, htarget⟩ := exists_target_of_storedIn h
  exact canWrite_of_target hd htarget (Disk.isDir_eq_of_target htarget)

/-- Where the directory of a file cannot be made, the file is at a path that leads nowhere. -/
lemma storedIn_makeDirOf_eq_none (hd : d.HasWorkingDir) {file : String} {error : SystemError}
    (h : (makeDirOf d file).answer = .error error) :
    storedIn (makeDirOf d file).disk file = none := by
  have hmade := hasWorkingDir_makeDirOf hd file
  rw [Option.eq_none_iff_forall_ne_some]
  intro entries hstored
  obtain ⟨place, content, htarget⟩ := exists_target_of_storedIn hstored
  unfold makeDirOf at h hmade htarget
  cases hparent : Path.parent? file with
  | none =>
    rw [hparent] at h
    exact nomatch h
  | some parent =>
    rw [hparent] at h hmade htarget
    -- One of the directories around the file is none, so no path leads through it.
    obtain ⟨dir, hdir, hne, hnot⟩ := Disk.exists_not_isDir_of_makeDirs h
    have haround : Path.IsAncestor dir file := by
      rcases hdir with rfl | hdir
      · exact .single hparent
      · exact hdir.tail hparent
    exact Bool.false_ne_true (hnot.symm.trans (Disk.isDir_of_isAncestor hmade haround hne htarget))

/-- **What a save leaves in the file**: the entries, or, where it fails, nothing that can be
read. -/
lemma storedIn_save (hd : d.HasWorkingDir) (henabled : c.isEnabled = true) :
    storedIn (c.save d).disk c.file =
      match (c.save d).answer with
      | .ok () => some c.entries
      | .error _ => none := by
  have hmade := hasWorkingDir_makeDirOf hd c.file
  rcases save_cases henabled with
    ⟨error, hdirs, hsave⟩ | ⟨error, hwrite, hsave⟩ | ⟨saved, hwrite, hsave⟩
  · rw [hsave]
    exact storedIn_makeDirOf_eq_none hd hdirs
  · rw [hsave]
    -- the directories are there, so a file that could be read could be written over
    refine Option.eq_none_iff_forall_ne_some.mpr fun entries hstored => ?_
    obtain ⟨t, htarget⟩ := (canWrite_of_storedIn hmade hstored).target
    obtain ⟨written, hwritten⟩ := Disk.exists_write_of_target hmade htarget
      (canWrite_of_storedIn hmade hstored).not_isDir (fileContent c.entries)
    exact nomatch hwritten.symm.trans hwrite
  · rw [hsave]
    exact (storedIn_write hmade hwrite).trans (ofFileContent?_fileContent c.entries)

/-- A save fails only where nothing can be read already. -/
lemma storedIn_of_save_eq_error (hd : d.HasWorkingDir) {error : SystemError}
    (h : (c.save d).answer = .error error) : storedIn d c.file = none := by
  rw [Option.eq_none_iff_forall_ne_some]
  intro entries hstored
  cases henabled : c.isEnabled with
  | false =>
    rw [save, if_pos (by simp [henabled])] at h
    cases h
  | true =>
    obtain ⟨saved, hsave, -⟩ := save_of_canWrite hd henabled (canWrite_of_storedIn hd hstored)
    rw [hsave] at h
    cases h

/-- **What a load does**, if the cache is switched on and there is a file. -/
lemma load_eq_ok_iff (henabled : c.isEnabled = true) (hexists : d.pathExists c.file = true)
    {loaded : Cache} :
    c.load d = .ok loaded ↔
      ∃ entries, storedIn d c.file = some entries ∧ loaded = { c with entries := entries } := by
  unfold load storedIn
  rw [if_neg (by simp [henabled, hexists])]
  cases hread : d.read c.file with
  | error error => simp [Except.toOption]
  | ok content =>
    simp only [Except.toOption, Option.bind_some]
    cases ofFileContent? content with
    | none => simp
    | some entries => simp [eq_comm]

lemma load_of_storedIn (henabled : c.isEnabled = true) {entries : Keyed CachedResult}
    (h : storedIn d c.file = some entries) : c.load d = .ok { c with entries := entries } := by
  obtain ⟨place, content, htarget⟩ := exists_target_of_storedIn h
  have hexists : d.pathExists c.file = true := by
    rw [Disk.pathExists, Disk.node, htarget]
    rfl
  exact (load_eq_ok_iff henabled hexists).mpr ⟨entries, h, rfl⟩

/-- **What a lookup gives.** -/
lemma getValid?_eq_some_iff {path contentDigest settingsKey : String} {entry : CachedResult} :
    c.getValid? path contentDigest settingsKey = some entry ↔
      c.isEnabled = true ∧ c.entries.find? path = some entry ∧
        entry.contentDigest = contentDigest ∧ entry.settingsKey = settingsKey := by
  simp only [getValid?, get?, CachedResult.isValid, Option.filter_eq_some_iff, Bool.and_eq_true,
    beq_iff_eq]
  cases c.isEnabled <;> simp

end Cache

/-! ### Calls -/

/-- What a cache can be told to do. -/
inductive CacheCall where
  | insert (path : String) (entry : CachedResult)
  | erase (path : String)
  | clear
  | disable
  | load
  | save

namespace CacheCall

/-- The cache and the disk after a call.  A load that fails leaves the cache as it was. -/
def run (c : Cache) (d : Disk) : CacheCall → Cache × Disk
  | .insert path entry => (c.insert path entry, d)
  | .erase path => (c.erase path, d)
  | .clear => (c.clear, d)
  | .disable => (c.disable, d)
  | .load => ((c.load d).toOption.getD c, d)
  | .save => (c, (c.save d).disk)

/-- The entries that a call has saved, if it has. -/
def saved? (c : Cache) (d : Disk) : CacheCall → Option (Keyed CachedResult)
  | .save => if c.isEnabled ∧ (c.save d).answer = .ok () then some c.entries else none
  | _ => none

variable {c : Cache} {d : Disk}

/-- A load gives the cache the entries of the file, if it is switched on and they are there. -/
lemma load_getD_eq (c : Cache) (d : Disk) :
    (c.load d).toOption.getD c =
      if c.isEnabled then { c with entries := (Cache.storedIn d c.file).getD c.entries }
      else c := by
  by_cases henabled : c.isEnabled = true
  · rw [if_pos henabled]
    cases hstored : Cache.storedIn d c.file with
    | some entries =>
      rw [Cache.load_of_storedIn henabled hstored]
      rfl
    | none =>
      cases hload : c.load d with
      | error error => rfl
      | ok loaded =>
        have hmissing : d.pathExists c.file = false := by
          rw [← Bool.not_eq_true]
          intro hexists
          obtain ⟨entries, hfound, -⟩ := (Cache.load_eq_ok_iff henabled hexists).mp hload
          exact nomatch hstored.symm.trans hfound
        have hsame : c.load d = .ok c := by
          rw [Cache.load, hmissing, Bool.not_false, Bool.or_true, if_pos rfl]
        obtain rfl := Except.ok.inj (hload.symm.trans hsame)
        rfl
  · rw [if_neg henabled, Cache.load, if_pos (by simp [henabled])]
    rfl

lemma run_file (c : Cache) (d : Disk) (call : CacheCall) : (call.run c d).1.file = c.file := by
  cases call with
  | insert path entry =>
    show (c.insert path entry).file = c.file
    unfold Cache.insert
    split <;> rfl
  | erase | clear | disable | save => rfl
  | load =>
    show ((c.load d).toOption.getD c).file = c.file
    rw [load_getD_eq]
    split <;> rfl

lemma run_disk_of_not_isEnabled (h : c.isEnabled = false) (call : CacheCall) :
    (call.run c d).2 = d := by
  cases call with
  | save =>
    exact Cache.save_of_not_isEnabled h d
  | insert | erase | clear | disable | load => rfl

lemma run_hasWorkingDir (hd : d.HasWorkingDir) (call : CacheCall) :
    (call.run c d).2.HasWorkingDir := by
  cases call with
  | save =>
    exact Cache.save_keeps (fun parent _ => hd.makeDirs parent)
      (fun _ _ _ hmade hwrite => hmade.growsTo (Disk.growsTo_of_write hwrite)) hd
  | insert | erase | clear | disable | load => exact hd

/-- **What one call leaves in the file**: what it has saved, or else what was there before. -/
lemma storedIn_run (hd : d.HasWorkingDir) (call : CacheCall) :
    Cache.storedIn (call.run c d).2 c.file =
      (call.saved? c d).or (Cache.storedIn d c.file) := by
  cases call with
  | insert | erase | clear | disable | load => rfl
  | save =>
    cases henabled : c.isEnabled with
    | false =>
      rw [run_disk_of_not_isEnabled henabled]
      simp [saved?, henabled]
    | true =>
      have hstored := Cache.storedIn_save hd henabled
      -- a save that fails has nothing to lose in the file
      cases hanswer : (c.save d).answer with
      | error error =>
        rw [hanswer] at hstored
        simpa [run, saved?, hanswer, Cache.storedIn_of_save_eq_error hd hanswer] using hstored
      | ok =>
        rw [hanswer] at hstored
        simpa [run, saved?, henabled, hanswer] using hstored

/-- What a call makes of the map of a cache, if the file holds the map `stored?` or no cache. -/
def onMap (isEnabled : Bool) (stored? : Option (String → Option CachedResult))
    (held : String → Option CachedResult) : CacheCall → String → Option CachedResult
  | .insert path entry => if isEnabled then Function.update held path (some entry) else held
  | .erase path => Function.update held path none
  | .clear => fun _ => none
  | .load => if isEnabled then stored?.getD held else held
  | .disable | .save => held

/-- **What one call makes of the entries** is what it makes of a map. -/
lemma find?_run (c : Cache) (d : Disk) (call : CacheCall) :
    (call.run c d).1.entries.find? =
      call.onMap c.isEnabled ((Cache.storedIn d c.file).map Keyed.find?) c.entries.find? := by
  cases call with
  | insert path entry =>
    show (c.insert path entry).entries.find? = _
    unfold Cache.insert onMap
    cases c.isEnabled with
    | false => rfl
    | true =>
      funext key
      by_cases hkey : key = path
      · subst hkey
        simp
      · simp [hkey, Keyed.find?_insert_of_ne hkey]
  | erase path =>
    show (c.erase path).entries.find? = _
    unfold Cache.erase onMap
    funext key
    by_cases hkey : key = path
    · subst hkey
      simp
    · simp [hkey, Keyed.find?_erase_of_ne hkey]
  | load =>
    show ((c.load d).toOption.getD c).entries.find? = _
    rw [load_getD_eq, onMap]
    cases c.isEnabled with
    | false => rfl
    | true => cases Cache.storedIn d c.file <;> rfl
  | clear | disable | save => rfl

/-- Only `disable` switches a cache off, and nothing switches it on. -/
lemma isEnabled_run (c : Cache) (d : Disk) (call : CacheCall) :
    (call.run c d).1.isEnabled =
      match call with
      | .disable => false
      | _ => c.isEnabled := by
  cases call with
  | insert path entry =>
    show (c.insert path entry).isEnabled = c.isEnabled
    unfold Cache.insert
    split <;> rfl
  | load =>
    show ((c.load d).toOption.getD c).isEnabled = c.isEnabled
    rw [load_getD_eq]
    split <;> rfl
  | erase | clear | disable | save => rfl

end CacheCall

/-! ### Many caches -/

/-- **Caches that are kept in one file**, and the disk on which it is. -/
structure SharedCache (ι : Type) (file : String) where
  disk : Disk
  caches : ι → Cache
  hasWorkingDir : disk.HasWorkingDir
  file_eq : ∀ i, (caches i).file = file

namespace SharedCache

/-- What can happen to caches that are kept in one file. -/
inductive Move (ι : Type) (file : String) where
  | call (i : ι) (call : CacheCall)
  /-- Someone else changes the disk: the file is removed, or holds no cache any more. -/
  | outside (disk : Disk) (hasWorkingDir : disk.HasWorkingDir)
    (spoilt : Cache.storedIn disk file = none)

variable {ι : Type} [DecidableEq ι] {file : String}

/-- The caches and the disk after a call to one of the caches. -/
def call (s : SharedCache ι file) (i : ι) (call : CacheCall) : SharedCache ι file where
  disk := (call.run (s.caches i) s.disk).2
  caches := Function.update s.caches i (call.run (s.caches i) s.disk).1
  hasWorkingDir := call.run_hasWorkingDir s.hasWorkingDir
  file_eq j := by
    by_cases hj : j = i
    · subst hj
      rw [Function.update_self, call.run_file, s.file_eq]
    · rw [Function.update_of_ne hj, s.file_eq]

/-- The caches and the disk after a move. -/
def step (s : SharedCache ι file) : Move ι file → SharedCache ι file
  | .call i call => s.call i call
  | .outside disk hasWorkingDir _ => { s with disk := disk, hasWorkingDir := hasWorkingDir }

/-- The caches and the disk after moves. -/
def after (s : SharedCache ι file) (moves : List (Move ι file)) : SharedCache ι file :=
  moves.foldl step s

/-- The move is one of someone else, who changes the disk. -/
def Move.IsOutside : Move ι file → Prop
  | .call .. => False
  | .outside .. => True

/-- The entries that a move has saved, if it has. -/
def saved? (s : SharedCache ι file) : Move ι file → Option (Keyed CachedResult)
  | .call i call => call.saved? (s.caches i) s.disk
  | .outside .. => none

/-- The entries of the latest save that succeeded during the moves. -/
def latestSave? (s : SharedCache ι file) : List (Move ι file) → Option (Keyed CachedResult)
  | [] => none
  | move :: moves => (latestSave? (s.step move) moves).or (s.saved? move)

/-- **What moves leave in the file**: the entries of the latest save, or what was there before, if
nobody else has spoilt the file since. -/
lemma storedIn_after (s : SharedCache ι file) (moves : List (Move ι file)) :
    Cache.storedIn (s.after moves).disk file =
        (s.latestSave? moves).or (Cache.storedIn s.disk file) ∨
      Cache.storedIn (s.after moves).disk file = none ∧ ∃ move ∈ moves, move.IsOutside := by
  -- By induction on the moves, the first of which is followed by the others from a state of its
  -- own.
  induction moves generalizing s with
  | nil => exact Or.inl rfl
  | cons move moves ih =>
    have hafter : s.after (move :: moves) = (s.step move).after moves := rfl
    rw [hafter, latestSave?, Option.or_assoc]
    rcases ih (s.step move) with hlatest | ⟨hnone, hmore⟩
    · cases move with
      | call i call =>
        have hstored : Cache.storedIn (s.step (.call i call)).disk file =
            (s.saved? (.call i call)).or (Cache.storedIn s.disk file) := by
          have hrun := call.storedIn_run (c := s.caches i) s.hasWorkingDir
          rwa [s.file_eq i] at hrun
        exact Or.inl (by rw [hlatest, hstored])
      | outside disk hasWorkingDir spoilt =>
        have hstored : Cache.storedIn (s.step (.outside disk hasWorkingDir spoilt)).disk file =
            none := spoilt
        rw [hstored, Option.or_none] at hlatest
        cases hsaved : (s.step (.outside disk hasWorkingDir spoilt)).latestSave? moves with
        | none => exact Or.inr ⟨hlatest.trans hsaved, _, List.mem_cons_self, trivial⟩
        | some entries => exact Or.inl (by rw [hlatest, hsaved, Option.some_or])
    · exact Or.inr ⟨hnone, hmore.imp fun _ h => ⟨List.mem_cons_of_mem _ h.1, h.2⟩⟩

lemma isEnabled_step {s : SharedCache ι file} {i : ι} (h : (s.caches i).isEnabled = false)
    (move : Move ι file) : ((s.step move).caches i).isEnabled = false := by
  cases move with
  | outside => exact h
  | call j call =>
    show (Function.update s.caches j (call.run (s.caches j) s.disk).1 i).isEnabled = false
    by_cases hi : i = j
    · subst hi
      rw [Function.update_self, CacheCall.isEnabled_run]
      cases call with
      | insert | erase | clear | load | save => exact h
      | disable => rfl
    · rwa [Function.update_of_ne hi]

lemma isEnabled_after {s : SharedCache ι file} {i : ι} (h : (s.caches i).isEnabled = false)
    (moves : List (Move ι file)) : ((s.after moves).caches i).isEnabled = false := by
  induction moves generalizing s with
  | nil => exact h
  | cons move moves ih => exact ih (isEnabled_step h move)

lemma isEnabled_after_disable {s : SharedCache ι file} {i : ι} {moves : List (Move ι file)}
    (h : .call i .disable ∈ moves) : ((s.after moves).caches i).isEnabled = false := by
  induction moves generalizing s with
  | nil => exact nomatch h
  | cons move moves ih =>
    rcases List.mem_cons.mp h with rfl | h
    · refine isEnabled_after ?_ moves
      show (Function.update s.caches i ((s.caches i).disable) i).isEnabled = false
      rw [Function.update_self]
      rfl
    · exact ih h

lemma call_eq_self {s : SharedCache ι file} {i : ι} {call : CacheCall}
    (h : call.run (s.caches i) s.disk = (s.caches i, s.disk)) : s.call i call = s := by
  obtain ⟨disk, caches, hd, hfile⟩ := s
  unfold SharedCache.call
  simp only [h, Function.update_eq_self]

/-! ### One load, and caches that are off -/

/-- **A load that finds a file** replaces the entries of its cache by those of the file, and touches
neither the disk nor another cache. -/
lemma step_load {s : SharedCache ι file} {i : ι} (henabled : (s.caches i).isEnabled = true)
    (hexists : s.disk.pathExists file = true) {loaded : Cache}
    (hload : (s.caches i).load s.disk = .ok loaded) :
    ∃ entries, Cache.storedIn s.disk file = some entries ∧
      (s.step (.call i .load)).disk = s.disk ∧
      (s.step (.call i .load)).caches =
        Function.update s.caches i { s.caches i with entries := entries } := by
  have hfile : (s.caches i).file = file := s.file_eq i
  obtain ⟨entries, hstored, rfl⟩ := (Cache.load_eq_ok_iff henabled (by rwa [hfile])).mp hload
  rw [hfile] at hstored
  refine ⟨entries, hstored, rfl, ?_⟩
  show Function.update s.caches i ((CacheCall.load.run (s.caches i) s.disk).1) = _
  rw [CacheCall.run, hload]
  rfl

lemma step_load_eq_self {s : SharedCache ι file} {i : ι}
    (h : s.disk.pathExists file = false ∨ ∃ error, (s.caches i).load s.disk = .error error) :
    s.step (.call i .load) = s := by
  refine call_eq_self ?_
  rcases h with hmissing | ⟨error, hload⟩
  · rw [CacheCall.run, Cache.load, s.file_eq i, hmissing, Bool.not_false, Bool.or_true, if_pos rfl]
    rfl
  · rw [CacheCall.run, hload]
    rfl

/-- A cache that is off takes in nothing, neither from a caller nor from the file, and leaves the
file alone. -/
lemma step_of_not_isEnabled {s : SharedCache ι file} {i : ι}
    (h : (s.caches i).isEnabled = false) :
    (∀ path entry, s.step (.call i (.insert path entry)) = s) ∧
      s.step (.call i .load) = s ∧ s.step (.call i .save) = s := by
  refine ⟨fun path entry => call_eq_self ?_, call_eq_self ?_, call_eq_self ?_⟩
  · simp [CacheCall.run, Cache.insert, h]
  · simp [CacheCall.run, Cache.load, h, Except.toOption]
  · simp [CacheCall.run, Cache.save, h]

/-! ### Caches as maps -/

/-- **Caches and their file as maps** from the paths of files to results: what each cache holds,
whether it is switched on, and what the file holds, if it holds a cache. -/
@[ext]
structure CacheMaps (ι : Type) where
  held : ι → String → Option CachedResult
  isEnabled : ι → Bool
  stored? : Option (String → Option CachedResult)

/-- The maps after a move.  `isWritten` says whether the disk takes what a save writes. -/
def CacheMaps.step (m : CacheMaps ι) (isWritten : Bool) : Move ι file → CacheMaps ι
  | .call i call =>
    { held := Function.update m.held i (call.onMap (m.isEnabled i) m.stored? (m.held i))
      isEnabled := match call with
        | .disable => Function.update m.isEnabled i false
        | _ => m.isEnabled
      stored? := match call with
        | .save => if m.isEnabled i && isWritten then some (m.held i) else m.stored?
        | _ => m.stored? }
  | .outside .. => { m with stored? := none }

/-- The maps that caches and their file are. -/
def maps (s : SharedCache ι file) : CacheMaps ι where
  held i := (s.caches i).entries.find?
  isEnabled i := (s.caches i).isEnabled
  stored? := (Cache.storedIn s.disk file).map Keyed.find?

/-- Whether the move is a save that the disk takes. -/
def isWritten (s : SharedCache ι file) : Move ι file → Bool
  | .call i .save => ((s.caches i).save s.disk).answer = .ok ()
  | _ => false

/-- The maps that moves make of given ones, where the disk takes the same saves as from `s` on. -/
def mapsAfter (s : SharedCache ι file) (m : CacheMaps ι) : List (Move ι file) → CacheMaps ι
  | [] => m
  | move :: moves => mapsAfter (s.step move) (m.step (s.isWritten move) move) moves

/-- **One move on the caches is one on their maps.** -/
lemma maps_step (s : SharedCache ι file) (move : Move ι file) :
    (s.step move).maps = s.maps.step (s.isWritten move) move := by
  cases move with
  | outside disk hasWorkingDir spoilt =>
    refine CacheMaps.ext rfl rfl ?_
    show (Cache.storedIn disk file).map Keyed.find? = none
    rw [spoilt, Option.map_none]
  | call i call =>
    have hfile : (s.caches i).file = file := s.file_eq i
    -- Only the maps of the cache that is called change, so each part is compared at one cache or at
    -- the file.
    refine CacheMaps.ext ?_ ?_ ?_
    · have hrun := call.find?_run (s.caches i) s.disk
      rw [hfile] at hrun
      funext j
      show (Function.update s.caches i (call.run (s.caches i) s.disk).1 j).entries.find? =
        Function.update s.maps.held i _ j
      by_cases hj : j = i
      · subst hj
        rw [Function.update_self, Function.update_self]
        exact hrun
      · rw [Function.update_of_ne hj, Function.update_of_ne hj]
        rfl
    · have hrun := call.isEnabled_run (s.caches i) s.disk
      funext j
      show (Function.update s.caches i (call.run (s.caches i) s.disk).1 j).isEnabled = _
      by_cases hj : j = i
      · subst hj
        rw [Function.update_self, hrun]
        cases call with
        | insert | erase | clear | load | save => rfl
        | disable => exact (Function.update_self j false s.maps.isEnabled).symm
      · rw [Function.update_of_ne hj]
        cases call with
        | insert | erase | clear | load | save => rfl
        | disable => exact (Function.update_of_ne hj false s.maps.isEnabled).symm
    · have hrun := call.storedIn_run (c := s.caches i) s.hasWorkingDir
      rw [hfile] at hrun
      show (Cache.storedIn (call.run (s.caches i) s.disk).2 file).map Keyed.find? = _
      rw [hrun]
      cases call with
      | insert | erase | clear | disable | load => rfl
      | save =>
        simp only [CacheCall.saved?, CacheMaps.step, isWritten, maps, Bool.and_eq_true,
          decide_eq_true_eq]
        split <;> rfl

/-- **Caches that share a file are maps**, after any moves. -/
lemma maps_after (s : SharedCache ι file) (moves : List (Move ι file)) :
    (s.after moves).maps = s.mapsAfter s.maps moves := by
  induction moves generalizing s with
  | nil => rfl
  | cons move moves ih =>
    show ((s.step move).after moves).maps = _
    rw [ih, maps_step]
    rfl

/-- **Caches that share a file**, after any calls to them and whatever else has become of the file.
What a cache holds, and whether it is switched on, is what these calls make of maps; a lookup gives
what the map has, if it is about the text and the settings asked for.  A load that succeeds gives
the entries of the latest save that did, and it does succeed unless someone else has spoilt the
file; any other load changes nothing.  A cache that has been switched off gives out nothing, takes
in nothing and leaves the file alone. -/
theorem load_after (s : SharedCache ι file) (moves : List (Move ι file)) (i : ι) :
    let t := s.after moves
    let m := s.mapsAfter s.maps moves
    (((t.caches i).entries.find? = m.held i ∧ (t.caches i).isEnabled = m.isEnabled i) ∧
      ∀ path contentDigest settingsKey entry,
        (t.caches i).getValid? path contentDigest settingsKey = some entry ↔
          m.isEnabled i = true ∧ m.held i path = some entry ∧
            entry.contentDigest = contentDigest ∧ entry.settingsKey = settingsKey) ∧
    ((t.caches i).isEnabled = true → t.disk.pathExists file = true →
      (∃ loaded, (t.caches i).load t.disk = .ok loaded) →
      ∃ entries, (s.latestSave? moves).or (Cache.storedIn s.disk file) = some entries ∧
        (t.step (.call i .load)).disk = t.disk ∧
        (t.step (.call i .load)).caches =
          Function.update t.caches i { t.caches i with entries := entries }) ∧
    ((t.caches i).isEnabled = true → (∀ move ∈ moves, ¬ move.IsOutside) →
      ∀ entries, (s.latestSave? moves).or (Cache.storedIn s.disk file) = some entries →
        (t.caches i).load t.disk = .ok { t.caches i with entries := entries }) ∧
    (t.disk.pathExists file = false ∨ (∃ error, (t.caches i).load t.disk = .error error) →
      t.step (.call i .load) = t) ∧
    (.call i .disable ∈ moves →
      (∀ path, (t.caches i).get? path = none) ∧
      (∀ path contentDigest settingsKey,
        (t.caches i).getValid? path contentDigest settingsKey = none) ∧
      (∀ path entry, t.step (.call i (.insert path entry)) = t) ∧
      t.step (.call i .load) = t ∧ t.step (.call i .save) = t) := by
  intro t m
  have hmaps : t.maps = m := s.maps_after moves
  refine ⟨⟨⟨?held, ?enabled⟩, ?finds⟩, ?loads, ?succeeds, step_load_eq_self, ?off⟩
  case held => exact congrFun (congrArg CacheMaps.held hmaps) i
  case enabled => exact congrFun (congrArg CacheMaps.isEnabled hmaps) i
  case finds =>
    intro path contentDigest settingsKey entry
    rw [← hmaps]
    exact Cache.getValid?_eq_some_iff
  case loads =>
    rintro henabled hexists ⟨loaded, hload⟩
    obtain ⟨entries, hstored, hstep⟩ := step_load henabled hexists hload
    refine ⟨entries, ?_, hstep⟩
    rcases s.storedIn_after moves with hlatest | ⟨hnone, -⟩
    · exact hlatest.symm.trans hstored
    · exact nomatch hnone.symm.trans hstored
  case succeeds =>
    intro henabled hinside entries hentries
    refine Cache.load_of_storedIn henabled ?_
    rw [t.file_eq i]
    rcases s.storedIn_after moves with hlatest | ⟨-, move, hmove, houtside⟩
    · exact hlatest.trans hentries
    · exact absurd houtside (hinside move hmove)
  case off =>
    intro h
    have hoff : (t.caches i).isEnabled = false := isEnabled_after_disable h
    have hget (path : String) : (t.caches i).get? path = none := by simp [Cache.get?, hoff]
    refine ⟨hget, fun path _ _ => ?_, step_of_not_isEnabled hoff⟩
    rw [Cache.getValid?, hget path, Option.filter_none]

/-- Two caches, kept in a file that does not exist yet. -/
def twoCaches : SharedCache Bool "/cache" where
  disk := twoSheets
  caches _ := { file := "/cache" }
  hasWorkingDir := ⟨_, rfl⟩
  file_eq _ := rfl

/-- A result that has nothing to say. -/
def silentResult : CachedResult := ⟨"text", "settings", ⟨"/a", [], [], [], false, [], [], []⟩⟩

/-- One of two caches stores two results, gives one of them up, saves what is left and is switched
off. -/
def storedByOne : List (Move Bool "/cache") :=
  [.call true (.insert "/a" silentResult), .call true (.insert "/b" silentResult),
    .call true (.erase "/b"), .call true .save, .call true .disable]

/-- Two caches share a file: what one has saved before it was switched off, the other one loads, and
the first one keeps to itself.  What was erased before is not among it.  Once the file is removed,
there is nothing left to load. -/
theorem load_after_twoCaches :
    (((twoCaches.after storedByOne).step (.call false .load)).caches false).getValid?
        "/a" "text" "settings" = some silentResult ∧
      ((twoCaches.after (storedByOne ++ [.call false .load])).caches false).getValid?
        "/b" "text" "settings" = none ∧
      ((twoCaches.after storedByOne).caches true).get? "/a" = none ∧
      let removed := twoCaches.after
        (storedByOne ++ [.outside twoSheets ⟨_, rfl⟩ (by decide +kernel)])
      removed.step (.call false .load) = removed := by
  refine ⟨?_, ?_, ?_, ?_⟩
  · obtain ⟨-, hloads, hsucceeds, -⟩ := load_after twoCaches storedByOne false
    have hsaved : twoCaches.latestSave? storedByOne = some [("/a", silentResult)] := by
      decide +kernel
    have hload := hsucceeds (by decide +kernel) (by simp [storedByOne, Move.IsOutside])
      [("/a", silentResult)] (by rw [hsaved, Option.some_or])
    obtain ⟨entries, hentries, -, hcaches⟩ :=
      hloads (by decide +kernel) (by decide +kernel) ⟨_, hload⟩
    rw [hsaved, Option.some_or] at hentries
    cases hentries
    rw [hcaches, Function.update_self]
    decide +kernel
  · obtain ⟨⟨-, hfinds⟩, -⟩ :=
      load_after twoCaches (storedByOne ++ [.call false .load]) false
    rw [Option.eq_none_iff_forall_ne_some]
    intro entry hentry
    obtain ⟨-, hheld, -⟩ := (hfinds "/b" "text" "settings" entry).mp hentry
    have hnone : (twoCaches.mapsAfter twoCaches.maps
        (storedByOne ++ [.call false .load])).held false "/b" = none := by
      decide +kernel
    exact nomatch hnone.symm.trans hheld
  · obtain ⟨-, -, -, -, hoff⟩ := load_after twoCaches storedByOne true
    exact (hoff (by simp [storedByOne])).1 "/a"
  · obtain ⟨-, -, -, hkeeps, -⟩ := load_after twoCaches
      (storedByOne ++ [.outside twoSheets ⟨_, rfl⟩ (by decide +kernel)]) false
    exact hkeeps (Or.inl (by decide +kernel))

end SharedCache

end SheetLint
