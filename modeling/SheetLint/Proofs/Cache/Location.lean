import SheetLint.Proofs.Cache.Persistence

/-!
# Where a cache can be kept

A cache location is looked at three times: to see whether it is a directory, to make the directories
around the file, and to write the file.  A save that makes directories changes what the next look
sees.

Where nothing is in the way of a location, `Cache.IsCreatable`, a save succeeds, and the same
location leads to what was saved (`Cache.locate_save`).  The one thing that is decided too early is
whether the location is a directory: what asks for a directory by its spelling, or leads to one as
soon as others are made, is taken for a file as long as it is none (`Cache.locate_save_slash`).

`Cache.IsForeseen` leaves these locations out.  The first of them are those that end in a slash, a
`.` or a `..` and are not there yet.  The second are paths with a `..` in them behind a missing
directory: what they lead to comes to light only when that directory is made (`Cache.ComesToLight`).
A path without `..` that ends in a name is always foreseen (`isForeseen_of_not_mem`).
-/

namespace SheetLint.Cache

open SheetLint.Path (IsAncestor)

variable {d : Disk} {path : String}

/-- The path of the cache of a directory. -/
def fileIn (path : String) : String := Path.join path defaultFileName

/-- **Nothing is in the way of a cache** at the path: around it is nothing but directories, and it
is itself a directory, a file, or missing.  In a directory, the name of its cache leads to no
directory, and if it is a link, a file can be written through it.  The system accepts the names. -/
structure IsCreatable (d : Disk) (path : String) : Prop where
  around : ∀ dir node, IsAncestor dir path → d.entry dir = .ok node → d.isDir dir = true
  itself : ∀ node, d.entry path = .ok node →
    d.isDir path = true ∨ ∃ content, d.read path = .ok content
  inside : d.isDir path = true → d.isDir (fileIn path) = false ∧
    ∀ target, d.entry (fileIn path) = .ok (.link target) → ∃ t, d.target (fileIn path) false = .ok t
  isLookedAt : Disk.IsLookedAt path
  names : ∀ piece ∈ Disk.piecesOf path, piece.utf8ByteSize ≤ Disk.nameLimit
  fits : d.isDir path = true → (fileIn path).utf8ByteSize ≤ Disk.pathLimit

/-- **What comes to light** at a path when directories are made around it: it stands there then, and
could not be seen before.  This takes a `..`, as a directory that is made is empty. -/
def ComesToLight (d : Disk) (path : String) (node : Disk.Node) : Prop :=
  ".." ∈ Disk.piecesOf path ∧ (∀ old, d.entry path ≠ .ok old) ∧
    (makeDirOf d path).disk.entry path = .ok node

/-- **What a location is can be seen in time**, before directories are made.  It is a directory
already, or it ends in a name; and where something comes to light when directories are made, it is a
directory around the location, or a file at it. -/
structure IsForeseen (d : Disk) (path : String) : Prop where
  last : d.isDir path = true ∨
    ∃ front name, Disk.piecesOf path = front ++ [name] ∧ Path.IsProperName name
  around : ∀ dir node, IsAncestor dir path → ComesToLight d dir node →
    (makeDirOf d dir).disk.isDir dir = true
  itself : ∀ node, ComesToLight d path node →
    ∃ content, (makeDirOf d path).disk.read path = .ok content

lemma isForeseen_of_not_mem (hup : ".." ∉ Disk.piecesOf path)
    (hlast : ∃ front name, Disk.piecesOf path = front ++ [name] ∧ Path.IsProperName name) :
    IsForeseen d path where
  last := Or.inr hlast
  around _ _ hdir hlight :=
    absurd (Disk.mem_piecesOf_of_isAncestor hdir (by decide) hlight.1) hup
  itself _ hlight := absurd hlight.1 hup

/-! ### The directories around a location -/

lemma isFree_of_isAncestor (hd : d.HasWorkingDir) (h : IsCreatable d path)
    (hforeseen : IsForeseen d path) {dir : String} (hdir : IsAncestor dir path) :
    d.IsFree dir := by
  by_cases hempty : dir = ""
  · exact .empty hempty
  by_cases hthere : d.isDir dir = true
  · exact .there hthere
  have hnone (node : Disk.Node) : d.entry dir ≠ .ok node := fun hentry =>
    hthere (h.around dir node hdir hentry)
  have hlooked := h.isLookedAt.front hempty (Path.exists_toList_of_isAncestor hdir)
  obtain ⟨next, hnext, -⟩ := Relation.TransGen.head'_iff.mp hdir
  rcases Path.exists_pieces_of_parent? hnext with rfl | rfl | rfl | ⟨front, last, hpieces, hstep⟩
  · exact absurd rfl hempty
  · exact absurd d.entry_root (hnone _)
  · exact absurd hd.isDir_here hthere
  -- The directory ends in a `..` or in a name, and the two are made in different ways.
  by_cases hup : last = ['.', '.']
  · subst hup
    obtain ⟨parent, hparent, hends⟩ := Path.exists_parent?_of_step hpieces hstep
    exact .up hparent hends hlooked
  have hlast : last ∈ Text.pieces '/' dir.toList := by simp [hpieces]
  have hspelling : Disk.piecesOf dir = front.map String.ofList ++ [String.ofList last] := by
    rw [Disk.piecesOf, hpieces, List.map_append]
    rfl
  obtain ⟨parent, hparent, hends⟩ := Disk.exists_endsWithName hspelling
    (Path.isProperName_ofList (Path.mem_pieces hlast).1 hstep hup)
    (h.names _ (List.mem_map_of_mem (Path.mem_pieces_of_isAncestor hdir hstep hlast)))
  have hmade : makeDirOf d dir = d.makeDirs parent := by rw [makeDirOf, hparent]
  -- what comes to light at a directory around the location is a directory, by assumption
  refine .name hparent hends hlooked hnone fun hup node hentry => ?_
  rw [← hmade] at hentry ⊢
  exact hforeseen.around dir node hdir ⟨hup, hnone, hentry⟩

/-! ### Saving -/

lemma isProperName_defaultFileName : Path.IsProperName defaultFileName :=
  ⟨⟨by decide, by decide⟩, by decide, by decide⟩

lemma canWrite_fileIn (hd : d.HasWorkingDir) (h : IsCreatable d path)
    (hdir : d.isDir path = true) : CanWrite d (fileIn path) d := by
  have hname := isProperName_defaultFileName
  obtain ⟨slash, hslash, htext⟩ := Path.exists_toList_join path hname.isName.not_isAbsolute
  have hends : Disk.EndsWithName path (fileIn path) defaultFileName :=
    ⟨hname, by decide, Path.endsWithStep_join h.isLookedAt.ne_empty hname⟩
  have hlooked : Disk.IsLookedAt (fileIn path) := by
    refine ⟨fun hempty => ?_, fun hzero => ?_, h.fits hdir⟩
    · have hlonger := hends.endsWithStep.length_lt
      rw [hempty] at hlonger
      exact Nat.not_lt_zero _ hlonger
    · rw [fileIn, htext, List.mem_append, List.mem_append] at hzero
      rcases hzero with hzero | hzero | hzero
      · exact h.isLookedAt.zero hzero
      · rcases hslash with rfl | rfl
        · exact nomatch hzero
        · exact absurd hzero (by decide)
      · exact absurd hzero (by decide)
  obtain ⟨hnot, hlink⟩ := h.inside hdir
  obtain ⟨t, htarget⟩ : ∃ t, d.target (fileIn path) false = .ok t := by
    rcases d.target_true_cases (fileIn path) with ⟨place, target, hfound⟩ | heq
    · exact hlink target (by rw [Disk.entry, hfound]; rfl)
    · rcases Disk.target_cases_of_isDir hd hends hlooked (Or.inr hdir) with
        ⟨place, node, hfound⟩ | ⟨place, hmissing⟩
      · exact ⟨_, heq.symm.trans hfound⟩
      · exact ⟨_, heq.symm.trans hmissing⟩
  exact canWrite_of_target hd htarget hnot

/-- Around what is no directory the missing directories are made. -/
lemma exists_canWrite (hd : d.HasWorkingDir) (h : IsCreatable d path)
    (hforeseen : IsForeseen d path) (hdir : d.isDir path = false) :
    ∃ made, CanWrite d path made := by
  obtain ⟨front, name, hpieces, hname⟩ := hforeseen.last.resolve_left (by simp [hdir])
  obtain ⟨parent, hparent, hends⟩ :=
    Disk.exists_endsWithName hpieces hname (h.names name (by simp [hpieces]))
  have hmakes : d.Makes parent (makeDirOf d path) := by
    rw [makeDirOf, hparent]
    exact Disk.makes_of_isAncestor hd
      (fun _ hdir => isFree_of_isAncestor hd h hforeseen hdir) (.single hparent)
  obtain ⟨made, hmade, hgrow, haround, hcases⟩ := hmakes.cases_around
  have hlight := hforeseen.itself
  unfold ComesToLight at hlight
  rw [hmade] at hlight
  have hd' := hd.growsTo hgrow
  suffices hplace : (∃ t, made.target path false = .ok t) ∧ made.isDir path = false from
    ⟨made, hmade, hgrow, hplace.1, hplace.2⟩
  rcases Disk.target_cases_of_isDir hd' hends h.isLookedAt haround with
    ⟨place, node, hfound⟩ | ⟨place, hmissing⟩
  · have hentry : made.entry path = .ok node := by
      rw [Disk.entry, hfound]
      rfl
    have hread : ∃ content, made.read path = .ok content := by
      rcases hcases with rfl | ⟨hne, hmissing, hempty⟩
      · exact (h.itself node hentry).resolve_left (by simp [hdir])
      -- what stands in a directory that has just been made has come to light
      have hup : ".." ∈ Disk.piecesOf path := by
        by_contra hup
        obtain ⟨place', hnew⟩ := hempty fun hmem =>
          hup (Disk.mem_piecesOf_of_isAncestor (.single hparent) (by decide) hmem)
        cases hfound.symm.trans (Disk.target_of_emptyDir hd' hends hne h.isLookedAt hnew)
      refine hlight node ⟨hup, fun old hold => ?_, hentry⟩
      rw [Disk.entry, Disk.target_of_isMissing hd hends.endsWithStep hne h.isLookedAt hmissing]
        at hold
      cases hold
    obtain ⟨content, hread⟩ := hread
    obtain ⟨place', htarget⟩ := Disk.exists_target_of_read hread
    exact ⟨⟨_, htarget⟩, Disk.isDir_eq_of_target htarget⟩
  · have hnone := Disk.target_of_missing hmissing
    exact ⟨⟨_, hnone⟩, Disk.IsMissing.isDir_eq_false (Or.inr ⟨place, name, hnone⟩)⟩

/-- **A cache can be kept wherever nothing is in the way**, if it can be seen in time whether the
location is a directory: a save succeeds, and the same location leads to what was saved. -/
theorem locate_save (hd : d.HasWorkingDir) {location base : String}
    (h : IsCreatable d (Path.join base location))
    (hforeseen : IsForeseen d (Path.join base location)) (entries : Keyed CachedResult) :
    let cache : Cache := { file := locate d location base, entries := entries }
    (cache.save d).answer = .ok () ∧
      load { file := locate (cache.save d).disk location base } (cache.save d).disk =
        .ok cache := by
  intro cache
  obtain ⟨saved, hsave, hsame⟩ : ∃ saved, cache.save d = ⟨.ok (), saved⟩ ∧
      locate saved location base = cache.file := by
    by_cases hdir : d.isDir (Path.join base location) = true
    · have hfile : locate d location base = fileIn (Path.join base location) := if_pos hdir
      have hwrite := canWrite_fileIn hd h hdir
      rw [← hfile] at hwrite
      obtain ⟨saved, hsave, hgrow, -⟩ := save_of_canWrite hd (c := cache) rfl hwrite
      exact ⟨saved, hsave, (if_pos (hgrow.isDir hdir)).trans hfile.symm⟩
    · have hfile : locate d location base = Path.join base location := if_neg hdir
      obtain ⟨made, hwrite⟩ := exists_canWrite hd h hforeseen (Bool.eq_false_iff.mpr hdir)
      rw [← hfile] at hwrite
      obtain ⟨saved, hsave, -, hnot⟩ := save_of_canWrite hd (c := cache) rfl hwrite
      have hnot : saved.isDir (Path.join base location) = false := by rwa [← hfile]
      exact ⟨saved, hsave, (if_neg (Bool.eq_false_iff.mp hnot)).trans hfile.symm⟩
  have hanswer : (cache.save d).answer = .ok () := by rw [hsave]
  have hload := load_save hd rfl hanswer
  rw [hsave] at hload ⊢
  rw [hsame]
  exact ⟨rfl, hload⟩

/-- Nothing is in the way of what is not there yet, if there are directories around it as far as
there is anything. -/
lemma isCreatable_of_missing (hlooked : Disk.IsLookedAt path)
    (hnames : ∀ piece ∈ Disk.piecesOf path, piece.utf8ByteSize ≤ Disk.nameLimit)
    (hmissing : (d.entry path).toOption.isSome = false)
    (haround : ∀ dir, IsAncestor dir path →
      d.isDir dir = true ∨ (d.entry dir).toOption.isSome = false) :
    IsCreatable d path := by
  have hnone {path : String} (h : (d.entry path).toOption.isSome = false) (node : Disk.Node) :
      d.entry path ≠ .ok node := fun hentry => by
    rw [hentry] at h
    exact nomatch h
  have hnot : d.isDir path ≠ true := by
    intro hdir
    obtain ⟨place, entries, htarget⟩ := Disk.exists_target_of_isDir hdir
    rcases d.target_true_cases path with ⟨place', target, hlink⟩ | heq
    · exact hnone hmissing _ (by rw [Disk.entry, hlink]; rfl)
    · exact hnone hmissing _ (by rw [Disk.entry, heq, htarget]; rfl)
  exact ⟨fun dir node hdir hentry => (haround dir hdir).resolve_right fun h => hnone h node hentry,
    fun node hentry => absurd hentry (hnone hmissing node), fun hdir => absurd hdir hnot, hlooked,
    hnames, fun hdir => absurd hdir hnot⟩

/-- The directory around the location is missing, too. -/
theorem locate_save_missingDirectory :
    let cache : Cache := { file := locate twoSheets "tmp/cache" "/",
                           entries := [("/a", ⟨"", "", ⟨"/a", [], [], [], false, [], [], []⟩⟩)] }
    (cache.save twoSheets).answer = .ok () ∧
      load { file := locate (cache.save twoSheets).disk "tmp/cache" "/" }
        (cache.save twoSheets).disk = .ok cache := by
  have hlocation : Path.join "/" "tmp/cache" = "/tmp/cache" := by decide
  have haround {dir : String} (hdir : IsAncestor dir "/tmp/cache") : dir = "/tmp" ∨ dir = "/" := by
    rcases hdir.eq_or (by decide : _ = some "/tmp") with rfl | hdir
    · exact Or.inl rfl
    · rcases hdir.eq_or (by decide : _ = some "/") with rfl | hdir
      · exact Or.inr rfl
      · exact absurd hdir (Path.not_isAncestor (by decide))
  refine locate_save ⟨_, rfl⟩ ?creatable ?foreseen _ <;> rw [hlocation]
  case creatable =>
    refine isCreatable_of_missing ⟨by decide, by decide, by decide⟩ (by decide) (by decide +kernel)
      fun dir hdir => ?_
    rcases haround hdir with rfl | rfl
    · exact Or.inr (by decide +kernel)
    · exact Or.inl (by decide +kernel)
  case foreseen =>
    exact isForeseen_of_not_mem (by decide)
      ⟨["", "tmp"], "cache", by decide, ⟨by decide, by decide⟩, by decide, by decide⟩

/-- **A slash at the end of a location is not enough** to keep the cache in a directory: nothing is
in the way of the directory, but since it is missing, it is written to as if it was a file. -/
theorem locate_save_slash :
    IsCreatable twoSheets (Path.join "/" ".cache/") ∧
      locate twoSheets ".cache/" "/" = "/.cache/" ∧
      (save { file := locate twoSheets ".cache/" "/" } twoSheets).answer =
        .error .isADirectory := by
  have hlocation : Path.join "/" ".cache/" = "/.cache/" := by decide
  refine ⟨?_, by decide +kernel, ?_⟩
  · rw [hlocation]
    refine isCreatable_of_missing ⟨by decide, by decide, by decide⟩ (by decide) (by decide +kernel)
      fun dir hdir => ?_
    rcases hdir.eq_or (by decide : _ = some "/") with rfl | hdir
    · exact Or.inl (by decide +kernel)
    · exact absurd hdir (Path.not_isAncestor (by decide))
  · decide +kernel

end SheetLint.Cache
