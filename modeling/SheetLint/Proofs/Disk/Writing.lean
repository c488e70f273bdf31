import SheetLint.Proofs.Disk.Growth

/-!
# What is written is read back

Writing a file lets the disk grow.  So its path leads to the same place again, and `read_write`
finds there what was written.

For this the working directory has to exist, as it does for every program; otherwise a relative path
leads nowhere.  `HasWorkingDir` is kept by everything that lets the disk grow.  With it, a name that
a path finds missing belongs to a directory of the tree (`HasWorkingDir.isInDir`), so that a file
put under it does stand in the tree: following pieces never leaves the directories of the tree
(`isInDir_of_followToLink`), and a link is followed from the directory in which it stands.
-/

namespace SheetLint.Disk

namespace Node

lemma exists_dir_of_at?_concat {tree node : Node} {here : List String} {name : String}
    (h : tree.at? (here ++ [name]) = some node) :
    ∃ entries, tree.at? here = some (.dir entries) := by
  rw [← bind_child?_eq_at?] at h
  obtain ⟨around, hhere, hchild⟩ := Option.bind_eq_some_iff.mp h
  obtain ⟨entries, rfl⟩ := eq_dir_of_child? hchild
  exact ⟨entries, hhere⟩

lemma exists_dir_dropLast {tree : Node} {here : List String} {entries : List (String × Node)}
    (h : tree.at? here = some (.dir entries)) :
    ∃ around, tree.at? here.dropLast = some (.dir around) := by
  rcases List.eq_nil_or_concat' here with rfl | ⟨front, name, rfl⟩
  · exact ⟨entries, h⟩
  · rw [List.dropLast_concat]
    exact exists_dir_of_at?_concat h

end Node

/-- A name that is missing, or a link, belongs to a directory of the tree. -/
def Stop.IsInDir (tree : Node) : Stop → Prop
  | .target (.found ..) => True
  | .target (.missing directory _) => ∃ entries, tree.at? directory = some (.dir entries)
  | .link directory .. => ∃ entries, tree.at? directory = some (.dir entries)

/-- Following pieces never leaves the directories of the tree. -/
lemma isInDir_of_followToLink {tree : Node} {asLink : Bool} {here pieces : List String}
    {stop : Stop} (hhere : ∃ entries, tree.at? here = some (.dir entries))
    (h : followToLink tree asLink here pieces = .ok stop) : stop.IsInDir tree := by
  fun_induction followToLink tree asLink here pieces with
  | case1 => cases h; trivial
  | case3 _ _ _ _ ih => exact ih hhere h
  | case4 _ _ _ ih => exact ih (Node.exists_dir_dropLast hhere.choose_spec) h
  | case6 => cases h; exact hhere
  | case8 here piece rest _ _ _ entries hdir ih =>
    exact ih ⟨entries, Node.bind_child?_eq_at? tree here piece ▸ hdir⟩ h
  | case9 => cases h; trivial
  | case10 => cases h; exact hhere
  | case11 => cases h; trivial
  | case2 | case5 | case7 | case12 => cases h

lemma isInDir_of_follow {tree : Node} {asLink : Bool} {links : Nat} {here pieces : List String}
    {t : Target} (htree : ∃ entries, tree = .dir entries)
    (hhere : ∃ entries, tree.at? here = some (.dir entries))
    (h : follow tree asLink links here pieces = .ok t) : (Stop.target t).IsInDir tree := by
  rw [follow_eq] at h
  obtain ⟨stop, hstop, h⟩ := exists_of_bind_eq_ok h
  have hin := isInDir_of_followToLink hhere hstop
  rcases stop with t' | ⟨directory, target, rest⟩
  · cases h
    exact hin
  · cases links with
    | zero => exact nomatch h
    | succ links =>
      refine isInDir_of_follow htree ?_ h
      split
      · obtain ⟨entries, rfl⟩ := htree
        exact ⟨entries, rfl⟩
      · exact hin

/-- The working directory exists. -/
def HasWorkingDir (d : Disk) : Prop := ∃ entries, d.tree.at? d.workingPlace = some (.dir entries)

namespace HasWorkingDir

variable {d d' : Disk} {path : String} {content : ByteArray}

lemma exists_dir (hd : d.HasWorkingDir) : ∃ entries, d.tree = .dir entries := by
  obtain ⟨entries, hentries⟩ := hd
  cases hplace : d.workingPlace with
  | nil =>
    rw [hplace] at hentries
    exact ⟨entries, Option.some.inj hentries⟩
  | cons name rest =>
    rw [hplace, Node.at?] at hentries
    obtain ⟨child, hchild, -⟩ := Option.bind_eq_some_iff.mp hentries
    exact Node.eq_dir_of_child? hchild

lemma isInDir (hd : d.HasWorkingDir) {asLink : Bool} {t : Target}
    (h : d.target path asLink = .ok t) : (Stop.target t).IsInDir d.tree := by
  unfold target at h
  split at h
  · exact nomatch h
  split at h
  · exact nomatch h
  split at h
  · exact nomatch h
  refine isInDir_of_follow hd.exists_dir ?_ h
  split
  · obtain ⟨entries, hentries⟩ := hd.exists_dir
    exact ⟨entries, by rw [hentries]; rfl⟩
  · exact hd

lemma growsTo (hd : d.HasWorkingDir) (h : d.GrowsTo d') : d'.HasWorkingDir := by
  obtain ⟨entries, hentries⟩ := hd
  unfold HasWorkingDir
  rw [h.workingPlace]
  exact h.tree.at?_dir hentries

lemma makeDirs (hd : d.HasWorkingDir) (path : String) : (d.makeDirs path).disk.HasWorkingDir :=
  makeDirs_keeps (fun _ _ _ _ hmade hd => hd.growsTo (growsTo_of_makeDir hmade)) hd

/-- **What is written stands where the path leads.** -/
lemma target_write (hd : d.HasWorkingDir) (h : d.write path content = .ok d') :
    ∃ place, d'.target path false = .ok (.found place (.file content)) := by
  have hgrow := growsTo_of_write h
  obtain ⟨place, t, htarget, rfl, ⟨old, rfl⟩ | ⟨directory, name, rfl, rfl⟩⟩ :=
    exists_of_write_eq_ok h
  · have hplace : d.tree.at? place = some (.file old) := fits_of_target htarget
    refine ⟨place, hgrow.target_eq (.found _ ?_) htarget⟩
    rcases List.eq_nil_or_concat' place with rfl | ⟨directory, name, rfl⟩
    · rfl
    · obtain ⟨around, haround⟩ := Node.exists_dir_of_at?_concat hplace
      exact Node.at?_put haround _ name
  · obtain ⟨around, haround⟩ := hd.isInDir htarget
    exact ⟨_, hgrow.target_eq (.missing (Node.at?_put haround _ name) nofun) htarget⟩

end HasWorkingDir

/-- **What is written is read back.** -/
theorem read_write {d d' : Disk} (hd : d.HasWorkingDir) {path : String} {content : ByteArray}
    (h : d.write path content = .ok d') : d'.read path = .ok content := by
  obtain ⟨place, htarget⟩ := hd.target_write h
  unfold read node
  rw [htarget]
  rfl

end SheetLint.Disk
