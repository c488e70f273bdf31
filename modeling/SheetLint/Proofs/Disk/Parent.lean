import SheetLint.Proofs.Disk.Onward
import SheetLint.Proofs.Path.Parent

/-!
# The directory around a path, on a disk

A path is followed along the path around it and then along its last step
(`target_eq_follow_parent`).  So a path that leads somewhere has only directories around it
(`isDir_of_isAncestor`), and one that ends in a slash leads to a directory.

For a path that ends in a name, `EndsWithName`, the directory around decides: in a directory the
name is found or missing, in an empty one it is missing (`target_of_emptyDir`), and where the
directory is missing everything in it is (`target_of_isMissing`).  A path that ends in `..` leads to
a directory if there is one around it (`isDir_up`).

Two cases stand apart throughout.  A path of a single step has the empty path around it, which is no
path that could be looked up: it is followed from the directory where paths begin.  And a path is
only looked up if the system does not refuse it, `IsLookedAt`, which goes over to the paths around
it since these are shorter.
-/

namespace SheetLint.Disk

open SheetLint.Path (parent? EndsWithStep isAbsolute)

variable {d : Disk} {path parent : String} {last : List Char} {trailing : List (List Char)}

/-! ### Along the path around a path -/

lemma startOf_parent (d : Disk) (hends : EndsWithStep parent path last trailing)
    (hne : parent ≠ "") : d.startOf parent = d.startOf path := by
  obtain ⟨behind, hbehind⟩ := hends.text
  obtain ⟨c, text, htext⟩ := List.exists_cons_of_ne_nil
    fun hnil : parent.toList = [] => hne (String.toList_eq_nil_iff.mp hnil)
  unfold startOf isAbsolute
  rw [hbehind, htext]
  rfl

/-- **A path is followed along the path around it**, and then along its last step. -/
lemma target_eq_follow_parent (d : Disk) (h : IsLookedAt path)
    (hends : EndsWithStep parent path last trailing) (hne : parent ≠ "") (asLink : Bool) :
    d.target path asLink = follow d.tree asLink linkLimit (d.startOf parent)
      (piecesOf parent ++ (last :: trailing).map String.ofList) := by
  obtain ⟨front, hpieces, hsteps⟩ := hends.steps
  have hrest : (last :: trailing).map String.ofList ≠ [] := by simp
  rw [target_eq_follow d h, startOf_parent d hends hne, piecesOf, hpieces, List.map_append,
    follow_filter_leads _ _ _ _ _ hrest, filter_leads_map, ← hsteps, ← filter_leads_map,
    ← follow_filter_leads _ _ _ _ _ hrest]
  rfl

/-- Where a path leads, and how it goes on from there. -/
lemma goesOn_path (hd : d.HasWorkingDir) (path : String) :
    GoesOn d.tree linkLimit (d.startOf path) (piecesOf path) := by
  obtain ⟨entries, hentries⟩ := hd.exists_at?_startOf path
  exact goesOn hd.isDir_tree linkLimit hentries (piecesOf path)

lemma isDir_eq_of_target {place : List String} {node : Node}
    (h : d.target path false = .ok (.found place node)) : d.isDir path = node.isDir := by
  rw [isDir, Disk.node, h]
  rfl

lemma isDir_of_target {place : List String} {entries : List (String × Node)}
    (h : d.target path false = .ok (.found place (.dir entries))) : d.isDir path = true :=
  isDir_eq_of_target h

lemma HasWorkingDir.isDir_here (hd : d.HasWorkingDir) : d.isDir "." = true := by
  obtain ⟨entries, hentries⟩ := hd
  have hlooked : IsLookedAt "." := ⟨by decide, by decide, by decide⟩
  have hstart : d.startOf "." = d.workingPlace := if_neg (by decide)
  have hpieces : piecesOf "." = ["."] := by decide
  have htarget : d.target "." false = .ok (.found d.workingPlace (.dir entries)) := by
    rw [target_eq_follow d hlooked, hstart, hpieces, follow_eq, followToLink, if_pos (Or.inr rfl),
      followToLink, hentries]
    rfl
  exact isDir_of_target htarget

lemma exists_target_of_isDir (h : d.isDir path = true) :
    ∃ place entries, d.target path false = .ok (.found place (.dir entries)) := by
  unfold isDir node at h
  rcases htarget : d.target path false with error | (⟨place, node⟩ | ⟨directory, name⟩)
  · simp [htarget, bind, Except.bind] at h
  · cases node with
    | file | link => simp [htarget, bind, Except.bind, Node.isDir] at h
    | dir entries => exact ⟨place, entries, rfl⟩
  · simp [htarget, bind, Except.bind] at h

/-- **Only from a directory a path goes on.** -/
lemma isDir_parent (hd : d.HasWorkingDir) (hparent : parent? path = some parent)
    (hne : parent ≠ "") {asLink : Bool} {t : Target} (h : d.target path asLink = .ok t) :
    d.isDir parent = true := by
  obtain ⟨last, trailing, hends⟩ := Path.exists_of_parent? hparent hne
  have hlooked := isLookedAt_of_target h
  rw [target_eq_follow_parent d hlooked hends hne] at h
  have htarget := target_eq_follow d (hlooked.front hne hends.text) false
  cases goesOn_path hd parent with
  | refused _ hrest | missing _ hrest | file _ hrest =>
    rw [hrest asLink _ (by simp)] at h
    exact nomatch h
  | directory _ hfront _ => exact isDir_of_target (htarget.trans hfront)

/-- **Around a path that leads somewhere there are directories.** -/
lemma isDir_of_isAncestor (hd : d.HasWorkingDir) {dir : String} (hdir : Path.IsAncestor dir path)
    (hne : dir ≠ "") {asLink : Bool} {t : Target} (h : d.target path asLink = .ok t) :
    d.isDir dir = true := by
  induction hdir using Relation.TransGen.head_induction_on generalizing asLink t with
  | single hparent => exact isDir_parent hd hparent hne h
  | @head dir next hparent hnext ih =>
    by_cases hempty : next = ""
    · subst hempty
      exact nomatch hparent
    · obtain ⟨place, entries, htarget⟩ := exists_target_of_isDir (ih hempty h)
      exact isDir_parent hd hparent hne htarget

/-- **A slash at the end asks for a directory.** -/
lemma exists_dir_of_slash (hd : d.HasWorkingDir) (hslash : path.toList.getLast? = some '/')
    {asLink : Bool} {t : Target} (h : d.target path asLink = .ok t) :
    ∃ place entries, t = .found place (.dir entries) := by
  obtain ⟨front, hfront⟩ := List.getLast?_eq_some_iff.mp hslash
  have hpieces : piecesOf path = (Text.pieces '/' front).map String.ofList ++ [""] := by
    rw [piecesOf, hfront, Text.pieces_append, List.map_append]
    rfl
  obtain ⟨entries, hstart⟩ := hd.exists_at?_startOf path
  rw [target_eq_follow d (isLookedAt_of_target h), hpieces] at h
  cases goesOn hd.isDir_tree linkLimit hstart ((Text.pieces '/' front).map String.ofList) with
  | refused _ hrest | missing _ hrest | file _ hrest =>
    rw [hrest asLink _ (List.cons_ne_nil _ _)] at h
    cases h
  | directory left hfound hrest =>
    have hplace := fits_of_follow hfound
    rw [hrest asLink _ (List.cons_ne_nil _ _), follow_eq, followToLink, if_pos (Or.inl rfl),
      followToLink, hplace] at h
    cases h
    exact ⟨_, _, rfl⟩

/-- **What can be written**: a path that leads to no directory, be it to a file or to a place where
nothing stands. -/
lemma exists_write_of_target (hd : d.HasWorkingDir) {t : Target}
    (h : d.target path false = .ok t) (hdir : d.isDir path = false) (content : ByteArray) :
    ∃ d', d.write path content = .ok d' := by
  have hslash : path.toList.getLast? ≠ some '/' := fun hslash => by
    obtain ⟨place, entries, rfl⟩ := exists_dir_of_slash hd hslash h
    exact Bool.false_ne_true (hdir.symm.trans (isDir_of_target h))
  have htarget := target_eq_follow d (isLookedAt_of_target h) false
  cases goesOn_path hd path with
  | refused hfound =>
    rw [htarget, hfound] at h
    exact nomatch h
  | missing hfound | file hfound =>
    rw [write, if_neg hslash, htarget, hfound]
    exact ⟨_, rfl⟩
  | directory _ hfound =>
    exact absurd (hdir.symm.trans (isDir_of_target (htarget.trans hfound))) Bool.false_ne_true

/-- The pieces of a path around another one that name steps are pieces of it. -/
lemma mem_piecesOf_of_isAncestor {dir : String} (h : Path.IsAncestor dir path) {piece : String}
    (hstep : Path.isStep piece.toList = true) (hpiece : piece ∈ piecesOf dir) :
    piece ∈ piecesOf path := by
  obtain ⟨text, htext, rfl⟩ := List.mem_map.mp hpiece
  rw [String.toList_ofList] at hstep
  exact List.mem_map_of_mem (Path.mem_pieces_of_isAncestor h hstep htext)

/-! ### In and behind a directory -/

/-- The last step of the path is a name, and the end of its spelling. -/
structure EndsWithName (parent path : String) (name : String) : Prop where
  isProperName : Path.IsProperName name
  size : name.utf8ByteSize ≤ nameLimit
  endsWithStep : EndsWithStep parent path name.toList []

lemma exists_endsWithName {front : List String} {name : String}
    (hpieces : piecesOf path = front ++ [name]) (hname : Path.IsProperName name)
    (hsize : name.utf8ByteSize ≤ nameLimit) :
    ∃ parent, Path.parent? path = some parent ∧ EndsWithName parent path name := by
  obtain ⟨inner, last, hinner, -, hlast⟩ := List.map_eq_append_iff.mp hpieces
  obtain ⟨piece, rfl, rfl⟩ := List.map_eq_singleton_iff.mp hlast
  have hstep : Path.isStep piece = true := by
    simpa only [String.toList_ofList] using hname.isStep_toList
  obtain ⟨parent, hparent, hends⟩ := Path.exists_parent?_of_step hinner hstep
  exact ⟨parent, hparent, hname, hsize, by rwa [String.toList_ofList]⟩

lemma target_of_dir (hd : d.HasWorkingDir) {name : String} (hends : EndsWithName parent path name)
    (hne : parent ≠ "") (hlooked : IsLookedAt path) {place : List String}
    {entries : List (String × Node)}
    (h : d.target parent false = .ok (.found place (.dir entries))) :
    d.target path true =
      match d.tree.at? (place ++ [name]) with
      | some node => .ok (.found (place ++ [name]) node)
      | none => .ok (.missing place name) := by
  rw [target_eq_follow d (hlooked.front hne hends.endsWithStep.text)] at h
  rw [target_eq_follow_parent d hlooked hends.endsWithStep hne]
  cases goesOn_path hd parent with
  | refused hnone | missing hnone | file hnone =>
    rw [h] at hnone
    cases hnone
  | directory left hfound hrest =>
    rw [h] at hfound
    cases hfound
    rw [hrest true _ (by simp), List.map_singleton, String.ofList_toList,
      follow_name hends.isProperName]
    exact if_neg (Nat.not_lt.mpr hends.size)

/-- Without a path around it, a path is followed along its last step. -/
lemma target_eq_follow_last (d : Disk) (hlooked : IsLookedAt path)
    (hends : EndsWithStep "" path last []) (asLink : Bool) :
    d.target path asLink =
      follow d.tree asLink linkLimit (d.startOf path) [String.ofList last] := by
  obtain ⟨front, hpieces, hsteps⟩ := hends.steps
  have hfront : (front.map String.ofList).filter leads = [] := by
    rw [filter_leads_map, ← hsteps]
    rfl
  have hrest : [last].map String.ofList ≠ [] := by simp
  rw [target_eq_follow d hlooked, piecesOf, hpieces, List.map_append,
    follow_filter_leads _ _ _ _ _ hrest, hfront, List.nil_append, List.map_singleton]

lemma target_of_name {name : String} (hends : EndsWithName "" path name)
    (hlooked : IsLookedAt path) :
    d.target path true =
      match d.tree.at? (d.startOf path ++ [name]) with
      | some node => .ok (.found (d.startOf path ++ [name]) node)
      | none => .ok (.missing (d.startOf path) name) := by
  rw [target_eq_follow_last d hlooked hends.endsWithStep, String.ofList_toList,
    follow_name hends.isProperName]
  exact if_neg (Nat.not_lt.mpr hends.size)

/-- **In a directory a name is found or missing.**  Without a path around it, a name is looked for
in the directory where the path begins. -/
lemma target_cases_of_isDir (hd : d.HasWorkingDir) {name : String}
    (hends : EndsWithName parent path name) (hlooked : IsLookedAt path)
    (h : parent = "" ∨ d.isDir parent = true) :
    (∃ place node, d.target path true = .ok (.found place node)) ∨
      ∃ place, d.target path true = .ok (.missing place name) := by
  by_cases hempty : parent = ""
  · subst hempty
    rw [target_of_name hends hlooked]
    cases d.tree.at? (d.startOf path ++ [name]) with
    | none => exact Or.inr ⟨_, rfl⟩
    | some node => exact Or.inl ⟨_, _, rfl⟩
  · obtain ⟨place, entries, hparent⟩ := exists_target_of_isDir (h.resolve_left hempty)
    rw [target_of_dir hd hends hempty hlooked hparent]
    cases d.tree.at? (place ++ [name]) with
    | none => exact Or.inr ⟨_, rfl⟩
    | some node => exact Or.inl ⟨_, _, rfl⟩

lemma target_of_emptyDir (hd : d.HasWorkingDir) {name : String}
    (hends : EndsWithName parent path name) (hne : parent ≠ "") (hlooked : IsLookedAt path)
    {place : List String} (h : d.target parent false = .ok (.found place .emptyDir)) :
    d.target path true = .ok (.missing place name) := by
  have hplace : d.tree.at? place = some .emptyDir := fits_of_target h
  rw [target_of_dir hd hends hne hlooked h, Node.at?_append, hplace, Option.bind_some,
    Node.isBare_emptyDir name []]

lemma follow_up {tree : Node} {here : List String} {entries : List (String × Node)}
    (hhere : tree.at? here = some (.dir entries)) (asLink : Bool) (links : Nat) :
    ∃ around, follow tree asLink links here [".."] = .ok (.found here.dropLast (.dir around)) := by
  obtain ⟨around, haround⟩ := Node.exists_dir_dropLast hhere
  refine ⟨around, ?_⟩
  rw [follow_eq, followToLink, if_neg (by decide), if_pos rfl, followToLink, haround]
  rfl

/-- **Upwards** from a directory there is a directory. -/
lemma isDir_up (hd : d.HasWorkingDir) (hends : EndsWithStep parent path ['.', '.'] [])
    (hlooked : IsLookedAt path) (h : parent = "" ∨ d.isDir parent = true) :
    d.isDir path = true := by
  have hlast : [['.', '.']].map String.ofList = [".."] := rfl
  by_cases hempty : parent = ""
  · subst hempty
    obtain ⟨entries, hstart⟩ := hd.exists_at?_startOf path
    obtain ⟨around, hup⟩ := follow_up hstart false linkLimit
    exact isDir_of_target ((target_eq_follow_last d hlooked hends false).trans hup)
  · obtain ⟨place, entries, hparent⟩ := exists_target_of_isDir (h.resolve_left hempty)
    rw [target_eq_follow d (hlooked.front hempty hends.text)] at hparent
    cases goesOn_path hd parent with
    | refused hnone | missing hnone | file hnone =>
      rw [hparent] at hnone
      cases hnone
    | directory left hfound hrest =>
      obtain ⟨around, hup⟩ := follow_up (fits_of_follow hfound) false left
      have htarget := target_eq_follow_parent d hlooked hends hempty false
      rw [hlast, hrest false _ (List.cons_ne_nil _ _)] at htarget
      exact isDir_of_target (htarget.trans hup)

/-- The path leads to a place where nothing stands. -/
def IsMissing (d : Disk) (path : String) : Prop :=
  d.target path false = .error .notFound ∨
    ∃ place name, d.target path false = .ok (.missing place name)

lemma target_of_missing {place : List String} {name : String}
    (h : d.target path true = .ok (.missing place name)) :
    d.target path false = .ok (.missing place name) := by
  rcases target_true_cases d path with ⟨place', target, hlink⟩ | heq
  · cases hlink.symm.trans h
  · exact heq.symm.trans h

lemma IsMissing.isDir_eq_false (h : d.IsMissing path) : d.isDir path = false := by
  unfold isDir node
  rcases h with hnone | ⟨place, name, hmissing⟩
  · rw [hnone]
    rfl
  · rw [hmissing]
    rfl

/-- **Behind a missing directory everything is missing.** -/
lemma target_of_isMissing (hd : d.HasWorkingDir)
    (hends : EndsWithStep parent path last trailing) (hne : parent ≠ "")
    (hlooked : IsLookedAt path) (h : d.IsMissing parent) (asLink : Bool) :
    d.target path asLink = .error .notFound := by
  have hfront := hlooked.front hne hends.text
  unfold IsMissing at h
  rw [target_eq_follow d hfront] at h
  rw [target_eq_follow_parent d hlooked hends hne]
  cases goesOn_path hd parent with
  | refused hparent hrest =>
    rw [hparent] at h
    rcases h with hnone | ⟨_, _, hmissing⟩
    · obtain rfl := Except.error.inj hnone
      exact hrest asLink _ (by simp)
    · exact nomatch hmissing
  | missing hparent hrest => exact hrest asLink _ (by simp)
  | file hparent | directory _ hparent =>
    rw [hparent] at h
    rcases h with hmissing | ⟨_, _, hmissing⟩ <;> cases hmissing

end SheetLint.Disk
