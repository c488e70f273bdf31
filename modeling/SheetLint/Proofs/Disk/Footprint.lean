import SheetLint.Proofs.Disk.Growth

/-!
# Footprints

A change to a disk is described by where it can be seen.  `TouchesOnly` names the paths of files
that may have been written and of directories that may have been made; at all other places there
stands what stood there before.  Places are compared by what stands at them alone, `ownAt?`: a
directory in which a file is written is the same directory.

Footprints of changes one after the other are put together (`TouchesOnly.trans`), which gives that
of making a directory with its parents (`TouchesOnly.makeDirs`), and of writing
(`TouchesOnly.write`).  All of these let the disk grow, so a path leads where it led before; hence a
file that is read afterwards is the same, unless the path leads to a file that may have been written
(`TouchesOnly.read_eq`).

The paths of a footprint are sets of spellings.  A place is touched if one of them leads there on
the changed disk, through links too.
-/

namespace SheetLint.Disk

/-- What stands at a place, without what is below it. -/
def ownAt? (d : Disk) (place : List String) : Option Node := (d.tree.at? place).map Node.own

/-- The path leads to something at the place. -/
def LeadsTo (d : Disk) (path : String) (place : List String) : Prop :=
  ∃ node, d.target path false = .ok (.found place node)

/-- What can become of a place when no directories are made but those at `dirs`, and no files
written but those at `files`. -/
inductive Touch (d : Disk) (dirs files : Set String) (d' : Disk) (place : List String) : Prop
  | same (h : d'.ownAt? place = d.ownAt? place)
  /-- A directory stands where nothing was. -/
  | made {dir : String} (hdir : dir ∈ dirs) (hlead : d'.LeadsTo dir place)
    (hold : d.ownAt? place = none) (hnew : d'.ownAt? place = some .emptyDir)
  /-- A file stands where nothing was, or a file. -/
  | written {file : String} (hfile : file ∈ files) (hlead : d'.LeadsTo file place)
    (hold : ∀ old, d.ownAt? place = some old → ∃ content, old = .file content)
    (hnew : ∃ content, d'.ownAt? place = some (.file content))

/-- **Footprints.**  Everything on the disk is as it was, but for directories made at some paths and
files written at others. -/
structure TouchesOnly (d : Disk) (dirs files : Set String) (d' : Disk) : Prop where
  workingPlace : d'.workingPlace = d.workingPlace
  places : ∀ place, Touch d dirs files d' place

variable {d d' d'' : Disk} {dirs files : Set String} {path : String} {place : List String}

lemma LeadsTo.growsTo (h : d.LeadsTo path place) (hgrow : d.GrowsTo d') :
    d'.LeadsTo path place := by
  obtain ⟨node, htarget⟩ := h
  obtain ⟨node', hnode', -⟩ := hgrow.tree place node (fits_of_target htarget)
  exact ⟨node', hgrow.target_eq (.found node hnode') htarget⟩

lemma target_dir {entries : List (String × Node)}
    (h : d.target path true = .ok (.found place (.dir entries))) :
    d.target path false = .ok (.found place (.dir entries)) := by
  rcases target_true_cases d path with ⟨place', target, hlink⟩ | heq
  · rw [hlink] at h
    cases h
  · rw [← heq, h]

lemma withoutEndSlashes_eq (h : path = "" ∨ path = "/" ∨ ¬ Path.EndsInSlash path) :
    (if withoutEndSlashes path = "" then path else withoutEndSlashes path) = path := by
  rcases h with rfl | rfl | hslash
  · rfl
  · rfl
  · have hkept : withoutEndSlashes path = path := by
      unfold withoutEndSlashes
      cases hreversed : path.toList.reverse with
      | nil =>
        rw [List.reverse_eq_nil_iff, String.toList_eq_nil_iff] at hreversed
        exact absurd (Or.inl hreversed) hslash
      | cons c text =>
        have hc : c ≠ '/' := by
          rintro rfl
          refine hslash (Or.inr ?_)
          rw [← List.head?_reverse, hreversed]
          rfl
        rw [List.dropWhile_cons_of_neg (by simpa using hc), ← hreversed, List.reverse_reverse,
          String.ofList_toList]
    rw [hkept, ite_self]

namespace TouchesOnly

lemma refl (d : Disk) (dirs files : Set String) : d.TouchesOnly dirs files d :=
  ⟨rfl, fun _ => .same rfl⟩

/-- **What is touched like this grows.** -/
lemma growsTo (h : d.TouchesOnly dirs files d') : d.GrowsTo d' := by
  refine ⟨fun place node hnode => ?_, h.workingPlace⟩
  have hown : d.ownAt? place = some node.own := congrArg (Option.map Node.own) hnode
  have hkind : ∃ own', d'.ownAt? place = some own' ∧ own'.kind = node.kind := by
    cases h.places place with
    | same hsame => exact ⟨node.own, hsame.trans hown, Node.kind_own node⟩
    | made _ _ hold _ =>
      rw [hown] at hold
      exact nomatch hold
    | written _ _ hold hnew =>
      obtain ⟨old, hfile⟩ := hold node.own hown
      obtain ⟨new, hnew⟩ := hnew
      rw [Node.eq_file_of_own_eq hfile]
      exact ⟨.file new, hnew, rfl⟩
  obtain ⟨own', hown', hkind⟩ := hkind
  obtain ⟨node', hnode', rfl⟩ := Option.map_eq_some_iff.mp hown'
  exact ⟨node', hnode', (Node.kind_own node').symm.trans hkind⟩

/-- **One change after the other.** -/
lemma trans (h : d.TouchesOnly dirs files d') (h' : d'.TouchesOnly dirs files d'') :
    d.TouchesOnly dirs files d'' := by
  refine ⟨h'.workingPlace.trans h.workingPlace, fun place => ?_⟩
  cases h.places place with
  | same hsame => cases h'.places place with
    | same hsame' => exact .same (hsame'.trans hsame)
    | made hdir hlead hold hnew => exact .made hdir hlead (hsame ▸ hold) hnew
    | written hfile hlead hold hnew => exact .written hfile hlead (hsame ▸ hold) hnew
  -- a directory that has been made is not made again, and no file is written in its place
  | made hdir hlead hold hnew => cases h'.places place with
    | same hsame' => exact .made hdir (hlead.growsTo h'.growsTo) hold (hsame'.trans hnew)
    | made _ _ hold' _ =>
      rw [hnew] at hold'
      exact nomatch hold'
    | written _ _ hold' _ =>
      obtain ⟨content, hcontent⟩ := hold' _ hnew
      exact nomatch hcontent
  -- a file that has been written may be written once more, but is never made a directory
  | written hfile hlead hold hnew => cases h'.places place with
    | same hsame' =>
      rw [← hsame'] at hnew
      exact .written hfile (hlead.growsTo h'.growsTo) hold hnew
    | made _ _ hold' _ =>
      obtain ⟨content, hcontent⟩ := hnew
      rw [hcontent] at hold'
      exact nomatch hold'
    | written hfile' hlead' _ hnew' => exact .written hfile' hlead' hold hnew'

/-- **What a path holds is kept**, unless the path leads to a file that may have been written. -/
lemma read_eq (h : d.TouchesOnly dirs files d') {content : ByteArray}
    (hread : d.read path = .ok content) :
    d'.read path = .ok content ∨
      ∃ file ∈ files, ∃ place, d'.LeadsTo path place ∧ d'.LeadsTo file place := by
  obtain ⟨place, htarget⟩ := exists_target_of_read hread
  have hplace : d.tree.at? place = some (.file content) := fits_of_target htarget
  have hown : d.ownAt? place = some (.file content) := congrArg (Option.map Node.own) hplace
  cases h.places place with
  | same hsame =>
    obtain ⟨node', hnode', hown'⟩ := Option.map_eq_some_iff.mp (hsame.trans hown)
    rw [Node.eq_file_of_own_eq hown'] at hnode'
    left
    rw [read, node, h.growsTo.target_eq (.found _ hnode') htarget]
    rfl
  | made _ _ hold _ =>
    rw [hown] at hold
    exact nomatch hold
  | written hfile hlead _ _ =>
    exact Or.inr ⟨_, hfile, place, LeadsTo.growsTo ⟨_, htarget⟩ h.growsTo, hlead⟩

/-- **Making a directory.**  Its path is spelled without a slash at its end, or is the root. -/
lemma makeDir {dir : String} (hdir : dir ∈ dirs)
    (hspelling : dir = "" ∨ dir = "/" ∨ ¬ Path.EndsInSlash dir) (h : d.makeDir dir = .ok d') :
    d.TouchesOnly dirs files d' := by
  have hgrow := growsTo_of_makeDir h
  obtain ⟨directory, name, htarget, rfl⟩ := exists_of_makeDir_eq_ok h
  rw [withoutEndSlashes_eq hspelling] at htarget
  have hnone : d.tree.at? (directory ++ [name]) = none := fits_of_target htarget
  refine ⟨rfl, fun other => ?_⟩
  have hbare : ∀ old, d.tree.at? (directory ++ [name]) = some old → old.IsBare := by
    intro old hold
    rw [hnone] at hold
    exact nomatch hold
  rcases Node.own_at?_put hbare Node.isBare_emptyDir other with ⟨rfl, hstands⟩ | hsame
  · exact .made hdir ⟨.emptyDir, target_dir (hgrow.target_eq (.missing hstands nofun) htarget)⟩
      (congrArg (Option.map Node.own) hnone) (congrArg (Option.map Node.own) hstands)
  · exact .same hsame

/-- **Making the directories around a file.** -/
lemma makeDirs {file parent : String} (hparent : Path.parent? file = some parent)
    (hdirs : ∀ dir, Path.IsAncestor dir file → dir ∈ dirs) :
    d.TouchesOnly dirs files (d.makeDirs parent).disk := by
  refine makeDirs_keeps ?_ (refl d dirs files)
  intro d₁ d₂ dir hdir hmade h
  have haround : Path.IsAncestor dir file := by
    rcases hdir with rfl | hdir
    · exact .single hparent
    · exact hdir.tail hparent
  exact h.trans (makeDir (hdirs dir haround) (Path.spelling_of_isAncestor haround) hmade)

/-- **Writing a file.** -/
lemma write {file : String} (hfile : file ∈ files) {content : ByteArray}
    (h : d.write file content = .ok d') : d.TouchesOnly dirs files d' := by
  have hgrow := growsTo_of_write h
  obtain ⟨place, t, htarget, rfl, hcases⟩ := exists_of_write_eq_ok h
  -- writing puts the file in place of a file, or of nothing
  have hold : ∀ old, d.tree.at? place = some old → ∃ content, old = .file content := by
    intro old hold
    rcases hcases with ⟨content, rfl⟩ | ⟨directory, name, rfl, rfl⟩
    · have hplace : d.tree.at? place = some (.file content) := fits_of_target htarget
      rw [hplace] at hold
      cases hold
      exact ⟨content, rfl⟩
    · have hplace : d.tree.at? (directory ++ [name]) = none := fits_of_target htarget
      rw [hplace] at hold
      exact nomatch hold
  refine ⟨rfl, fun other => ?_⟩
  have hbare : ∀ old, d.tree.at? place = some old → old.IsBare := by
    intro old hplace
    obtain ⟨content, rfl⟩ := hold old hplace
    exact Node.isBare_file content
  rcases Node.own_at?_put hbare (Node.isBare_file content) other with ⟨rfl, hstands⟩ | hsame
  · refine .written hfile ⟨.file content, ?_⟩ ?_ ⟨content, congrArg (Option.map Node.own) hstands⟩
    · rcases hcases with ⟨old, rfl⟩ | ⟨directory, name, rfl, rfl⟩
      · exact hgrow.target_eq (.found _ hstands) htarget
      · exact hgrow.target_eq (.missing hstands nofun) htarget
    · intro old hplace
      obtain ⟨node, hnode, rfl⟩ := Option.map_eq_some_iff.mp hplace
      obtain ⟨content, rfl⟩ := hold node hnode
      exact ⟨content, rfl⟩
  · exact .same hsame

end TouchesOnly

end SheetLint.Disk
