import SheetLint.Proofs.Disk.Placement

/-!
# Paths that go on

A path that goes on behind some pieces is followed along these pieces first, and only from a
directory it goes on: behind a file, or where nothing is, further pieces lead nowhere.  A link at
the end of the pieces in front is followed, even if a link in the last place of the whole path is
asked for itself.

Up to the next link this is `followToLink_append`.  `goesOn` says it through all links: `GoesOn`
lists the four ways in which a front can end, each with what becomes of the pieces behind it.  The
links that may still be followed are the only thing that is carried over, and they are why the front
is not simply followed to its end and the rest from there with a fresh count.

From this come the facts about whole paths: `target_eq_follow` gives the place from which a path is
followed, and `entry_below_concat` says that the entry of a directory is what is found at the path
of the directory with the name behind it.  The system refuses paths that are empty, hold the
character zero or are too long (`IsLookedAt`), so the latter has to suppose that the longer path is
within the limits.
-/

namespace SheetLint.Disk

open SheetLint.Path (below isAbsolute IsName IsProperName)

/-! ### Up to the next link -/

section

variable {tree : Node} {here : List String}

lemma ne_link_of_followToLink {entries : List (String × Node)}
    (hhere : tree.at? here = some (.dir entries)) {pieces place : List String} {node : Node}
    (h : followToLink tree false here pieces = .ok (.target (.found place node)))
    (target : String) : node ≠ .link target := by
  induction pieces generalizing here entries with
  | nil =>
    rw [followToLink, hhere] at h
    cases h
    rintro ⟨⟩
  | cons piece rest ih =>
    unfold followToLink at h
    split at h
    · exact ih hhere h
    split at h
    · exact ih (Node.exists_dir_dropLast hhere).choose_spec h
    split at h
    · cases h
    split at h
    · split at h <;> cases h
    · next entries hdir =>
      rw [Node.bind_child?_eq_at?] at hdir
      exact ih hdir h
    · split at h
      -- a link is found only where it is asked for itself, which `false` excludes
      · next hlast => exact absurd hlast.2 Bool.false_ne_true
      · cases h
    · split at h
      · cases h
        rintro ⟨⟩
      · cases h

/-- How following goes on with further pieces from where it has stopped. -/
def goOn (tree : Node) (asLink : Bool) (rest : List String) : Stop → Except SystemError Stop
  | .target (.found _ (.file _)) => .error .notADirectory
  | .target (.found place _) => followToLink tree asLink place rest
  | .target (.missing _ _) => .error .notFound
  | .link directory target inner => .ok (.link directory target (inner ++ rest))

/-- **Following pieces and then further ones.** -/
lemma followToLink_append {entries : List (String × Node)}
    (hhere : tree.at? here = some (.dir entries)) (asLink : Bool) (front : List String)
    {rest : List String} (hrest : rest ≠ []) :
    followToLink tree asLink here (front ++ rest) =
      (followToLink tree false here front).bind (goOn tree asLink rest) := by
  induction front generalizing here entries with
  | nil =>
    conv => rhs; rw [followToLink, hhere]
    rfl
  | cons piece front ih =>
    -- Pieces are left behind each piece of the front, so no link in it is the last one.
    have hmore : (front ++ rest).isEmpty = false := by simp [hrest]
    rw [List.cons_append, followToLink, followToLink]
    by_cases hstays : piece = "" ∨ piece = "."
    · simp only [if_pos hstays]
      exact ih hhere
    by_cases hup : piece = ".."
    · simp only [if_neg hstays, if_pos hup]
      exact ih (Node.exists_dir_dropLast hhere).choose_spec
    by_cases hlong : nameLimit < piece.utf8ByteSize
    · simp only [if_neg hstays, if_neg hup, if_pos hlong]
      rfl
    simp only [if_neg hstays, if_neg hup, if_neg hlong, hmore]
    rcases hchild : (tree.at? here).bind (·.child? piece) with _ | (content | target | entries)
    · cases front <;> rfl
    · cases front <;> rfl
    · simp only [Bool.false_eq_true, false_and, and_false, if_false]
      rfl
    · rw [Node.bind_child?_eq_at?] at hchild
      exact ih hchild

end

/-! ### Through all links -/

/-- **Where following stands behind some pieces**, and how it goes on from there. -/
inductive GoesOn (tree : Node) (links : Nat) (here front : List String) : Prop where
  | refused {error : SystemError} (h : follow tree false links here front = .error error)
    (hrest : ∀ asLink rest, rest ≠ [] →
      follow tree asLink links here (front ++ rest) = .error error)
  | missing {directory : List String} {name : String}
    (h : follow tree false links here front = .ok (.missing directory name))
    (hrest : ∀ asLink rest, rest ≠ [] →
      follow tree asLink links here (front ++ rest) = .error .notFound)
  | file {place : List String} {content : ByteArray}
    (h : follow tree false links here front = .ok (.found place (.file content)))
    (hrest : ∀ asLink rest, rest ≠ [] →
      follow tree asLink links here (front ++ rest) = .error .notADirectory)
  | directory {place : List String} {entries : List (String × Node)} (left : Nat)
    (h : follow tree false links here front = .ok (.found place (.dir entries)))
    (hrest : ∀ asLink rest, rest ≠ [] →
      follow tree asLink links here (front ++ rest) = follow tree asLink left place rest)

/-- **Following through a front.**  The induction is on the links that may still be followed: behind
a link its target and the rest of the pieces are a new front. -/
lemma goesOn {tree : Node} (hroot : tree.isDir = true) (links : Nat) {here : List String}
    {entries : List (String × Node)} (hhere : tree.at? here = some (.dir entries))
    (front : List String) : GoesOn tree links here front := by
  induction links using Nat.strong_induction_on generalizing here entries front with
  | _ links ih =>
  have happend (asLink : Bool) {rest : List String} (hrest : rest ≠ []) :=
    followToLink_append hhere asLink front hrest
  -- The front up to its next link either ends the walk or leads to that link. In each case the
  -- whole path does what the front does, since `happend` puts the rest behind the stop.
  rcases hstop : followToLink tree false here front with
    error | (⟨place, node⟩ | ⟨directory, name⟩) | ⟨directory, target, inner⟩
  · have hfront : follow tree false links here front = .error error := by
      rw [follow_eq, hstop]
      rfl
    refine .refused hfront fun asLink rest hrest => ?_
    rw [follow_eq, happend asLink hrest, hstop]
    rfl
  · cases node with
    -- the front follows a link at its end, so none is found there
    | link target => exact absurd rfl (ne_link_of_followToLink hhere hstop target)
    | file content =>
      have hfront : follow tree false links here front = .ok (.found place (.file content)) := by
        rw [follow_eq, hstop]
        rfl
      refine .file hfront fun asLink rest hrest => ?_
      rw [follow_eq, happend asLink hrest, hstop]
      rfl
    | dir entries =>
      have hfront : follow tree false links here front = .ok (.found place (.dir entries)) := by
        rw [follow_eq, hstop]
        rfl
      refine .directory links hfront fun asLink rest hrest => ?_
      rw [follow_eq, happend asLink hrest, hstop, follow_eq tree asLink links place]
      rfl
  · have hfront : follow tree false links here front = .ok (.missing directory name) := by
      rw [follow_eq, hstop]
      rfl
    refine .missing hfront fun asLink rest hrest => ?_
    rw [follow_eq, happend asLink hrest, hstop]
    rfl
  · cases links with
    | zero =>
      have hfront : follow tree false 0 here front = .error .tooManyLinks := by
        rw [follow_eq, hstop]
        rfl
      refine .refused hfront fun asLink rest hrest => ?_
      rw [follow_eq, happend asLink hrest, hstop]
      rfl
    -- A link: it leads to `start` with the pieces of its target in front. These and the pieces that
    -- are left of the front are the front for the induction, with one link less.
    | succ links =>
      obtain ⟨start, hstart, hdir⟩ : ∃ start,
          (if target.toList.head? = some '/' then [] else directory) = start ∧
            ∃ entries, tree.at? start = some (.dir entries) := by
        refine ⟨_, rfl, ?_⟩
        split
        · cases tree with
          | file | link => exact nomatch hroot
          | dir entries => exact ⟨entries, rfl⟩
        -- a relative target starts in the directory in which the link stands
        · exact isInDir_of_followToLink ⟨entries, hhere⟩ hstop
      obtain ⟨entries, hdir⟩ := hdir
      have hfront : follow tree false (links + 1) here front =
          follow tree false links start (piecesOf target ++ inner) := by
        rw [follow_eq, hstop, ← hstart]
        rfl
      have hrest (asLink : Bool) {rest : List String} (hrest : rest ≠ []) :
          follow tree asLink (links + 1) here (front ++ rest) =
            follow tree asLink links start (piecesOf target ++ inner ++ rest) := by
        rw [follow_eq, happend asLink hrest, hstop, ← hstart, List.append_assoc]
        rfl
      -- `hfront` and `hrest` carry the four cases over to the path with the link in it.
      cases ih links (Nat.lt_succ_self links) hdir (piecesOf target ++ inner) with
      | refused h hmore =>
        exact .refused (hfront.trans h) fun asLink rest hne =>
          (hrest asLink hne).trans (hmore asLink rest hne)
      | missing h hmore =>
        exact .missing (hfront.trans h) fun asLink rest hne =>
          (hrest asLink hne).trans (hmore asLink rest hne)
      | file h hmore =>
        exact .file (hfront.trans h) fun asLink rest hne =>
          (hrest asLink hne).trans (hmore asLink rest hne)
      | directory left h hmore =>
        exact .directory left (hfront.trans h) fun asLink rest hne =>
          (hrest asLink hne).trans (hmore asLink rest hne)

lemma follow_name {tree : Node} {name : String} (hname : IsProperName name) (links : Nat)
    (here : List String) :
    follow tree true links here [name] =
      if nameLimit < name.utf8ByteSize then .error .nameTooLong
      else
        match tree.at? (here ++ [name]) with
        | some node => .ok (.found (here ++ [name]) node)
        | none => .ok (.missing here name) := by
  have hstays : ¬ (name = "" ∨ name = ".") := not_or.mpr ⟨hname.isName.1, hname.ne_here⟩
  rw [follow_eq, followToLink, if_neg hstays, if_neg hname.ne_up, Node.bind_child?_eq_at?]
  split
  · rfl
  rcases hnode : tree.at? (here ++ [name]) with _ | (content | target | entries)
  · rfl
  · rfl
  · rfl
  · simp only [followToLink, hnode]
    rfl

/-! ### Whole paths -/

section

variable {d : Disk} {path : String}

/-- The system looks at the path at all. -/
structure IsLookedAt (path : String) : Prop where
  ne_empty : path ≠ ""
  zero : '\x00' ∉ path.toList
  size : path.utf8ByteSize ≤ pathLimit

lemma isLookedAt_of_target {asLink : Bool} {t : Target} (h : d.target path asLink = .ok t) :
    IsLookedAt path := by
  unfold target at h
  split at h
  · exact nomatch h
  next hne =>
  split at h
  · exact nomatch h
  next hzero =>
  split at h
  · exact nomatch h
  next hsize =>
  rw [String.isEmpty_iff] at hne
  rw [List.contains_iff_mem] at hzero
  exact ⟨hne, hzero, Nat.le_of_not_lt hsize⟩

lemma IsLookedAt.front (h : IsLookedAt path) {front : String} (hne : front ≠ "")
    (htext : ∃ behind, path.toList = front.toList ++ behind) : IsLookedAt front := by
  obtain ⟨behind, hbehind⟩ := htext
  refine ⟨hne, fun hzero => h.zero ?_, ?_⟩
  · rw [hbehind]
    exact List.mem_append_left behind hzero
  · have hsize := h.size
    rw [Path.utf8ByteSize_eq_byteCount, hbehind, Path.byteCount, List.flatMap_append,
      List.length_append, ← Path.byteCount, ← Path.utf8ByteSize_eq_byteCount] at hsize
    omega

/-- The directory from which a path is followed. -/
def startOf (d : Disk) (path : String) : List String :=
  if isAbsolute path then [] else d.workingPlace

lemma target_eq_follow (d : Disk) (h : IsLookedAt path) (asLink : Bool) :
    d.target path asLink = follow d.tree asLink linkLimit (d.startOf path) (piecesOf path) := by
  have hne : ¬ path.isEmpty = true := by rw [String.isEmpty_iff]; exact h.ne_empty
  have hzero : ¬ path.toList.contains '\x00' = true := by rw [List.contains_iff_mem]; exact h.zero
  unfold target
  rw [if_neg hne, if_neg hzero, if_neg (Nat.not_lt.mpr h.size)]
  rfl

lemma HasWorkingDir.exists_at?_startOf (hd : d.HasWorkingDir) (path : String) :
    ∃ entries, d.tree.at? (d.startOf path) = some (.dir entries) := by
  unfold startOf
  split
  · obtain ⟨entries, hentries⟩ := hd.exists_dir
    exact ⟨entries, by rw [hentries]; rfl⟩
  · exact hd

lemma HasWorkingDir.isDir_tree (hd : d.HasWorkingDir) : d.tree.isDir = true := by
  obtain ⟨entries, hentries⟩ := hd.exists_dir
  rw [hentries]
  rfl

end

/-! ### The entry of a directory -/

/-- A path of names that the system looks at is followed along the names. -/
lemma target_below_eq_follow (d : Disk) {names : List String} (hnames : ∀ name ∈ names, IsName name)
    (h : IsLookedAt (below "/" names)) (asLink : Bool) :
    d.target (below "/" names) asLink = follow d.tree asLink linkLimit [] names := by
  have hstart : d.startOf (below "/" names) = [] := if_pos (Path.isAbsolute_below (by decide) names)
  rw [target_eq_follow d h, hstart, follow_eq, followToLink_piecesOf_below d.tree asLink hnames,
    ← follow_eq]

/-- A path of names spells the path of the names in front first. -/
lemma exists_toList_below_append {names more : List String}
    (hnames : ∀ name ∈ names ++ more, IsName name) :
    ∃ behind, (below "/" (names ++ more)).toList = (below "/" names).toList ++ behind := by
  by_cases hnil : names = []
  · subst hnil
    obtain ⟨inner, hinner⟩ := Path.exists_toList_eq_cons
      (Path.isAbsolute_below (by decide : Path.isAbsolute "/" = true) ([] ++ more))
    exact ⟨inner, hinner⟩
  · have hfront : ∀ name ∈ names, IsName name := fun name hname =>
      hnames name (List.mem_append_left more hname)
    refine ⟨Path.spelled more, ?_⟩
    rw [Path.toList_below hnames (List.append_ne_nil_of_left_ne_nil hnil more),
      Path.toList_below hfront hnil, Path.spelled_append]

lemma below_ne_empty (names : List String) : below "/" names ≠ "" := by
  obtain ⟨inner, hinner⟩ := Path.exists_toList_eq_cons
    (Path.isAbsolute_below (by decide : Path.isAbsolute "/" = true) names)
  intro hempty
  rw [hempty] at hinner
  exact nomatch hinner

/-- **The entry of a directory** is found at the path of the directory with the name behind it,
unless the system refuses that path. -/
lemma entry_below_concat {d : Disk} (hd : d.tree.isDir = true) {names : List String} {name : String}
    (hnames : ∀ n ∈ names, IsProperName n) (hname : IsProperName name) {node : Node}
    (hlimits : ∀ start, d.node (below "/" names) = .ok start → start.at? [name] = some node →
      IsWithinLimits (names ++ [name])) :
    d.entry (below "/" (names ++ [name])) = .ok node ↔
      ∃ start, d.node (below "/" names) = .ok start ∧ start.at? [name] = some node := by
  have hall := Path.isName_of_isProperName
    (List.forall_mem_append.mpr ⟨hnames, List.forall_mem_singleton.mpr hname⟩)
  by_cases hlooked : IsLookedAt (below "/" (names ++ [name]))
  -- A path that the system does not look at has no entry, and by the limits there is no child.
  case neg =>
    have hrefused : d.entry (below "/" (names ++ [name])) ≠ .ok node := by
      intro hentry
      obtain ⟨t, htarget, -⟩ := exists_of_bind_eq_ok hentry
      exact hlooked (isLookedAt_of_target htarget)
    refine ⟨fun hentry => absurd hentry hrefused, fun ⟨start, hstart, hchild⟩ => ?_⟩
    have h := hlimits start hstart hchild
    exact absurd ⟨below_ne_empty _, h.zero, h.path⟩ hlooked
  have hfront := hlooked.front (below_ne_empty names) (exists_toList_below_append hall)
  obtain ⟨entries, hroot⟩ : ∃ entries, d.tree.at? [] = some (.dir entries) := by
    cases htree : d.tree with
    | file | link => rw [htree] at hd; exact nomatch hd
    | dir entries => exact ⟨entries, rfl⟩
  unfold Disk.node at hlimits
  unfold entry Disk.node
  rw [target_below_eq_follow d (fun n hn => hall n (List.mem_append_left _ hn)) hfront]
    at hlimits ⊢
  rw [target_below_eq_follow d hall hlooked]
  -- Both sides depend on where the names in front lead; only a directory has entries.
  cases goesOn hd linkLimit hroot names with
  | refused hfront hrest =>
    rw [hfront, hrest true [name] (List.cons_ne_nil _ _)]
    simp [bind, Except.bind]
  | missing hfront hrest =>
    rw [hfront, hrest true [name] (List.cons_ne_nil _ _)]
    simp [bind, Except.bind]
  | file hfront hrest =>
    rw [hfront, hrest true [name] (List.cons_ne_nil _ _)]
    simp [bind, Except.bind, Node.at?_cons_of_not_isDir (n := .file _) rfl]
  | directory left hfront hrest =>
    rw [hfront] at hlimits ⊢
    rw [hrest true [name] (List.cons_ne_nil _ _), follow_name hname]
    have hplace : d.tree.at? _ = some (.dir _) := fits_of_follow hfront
    rw [Node.at?_append, hplace, Option.bind_some]
    by_cases hlong : nameLimit < name.utf8ByteSize
    · rw [if_pos hlong]
      refine ⟨fun hnone => (nomatch hnone), fun ⟨start, hstart, hchild⟩ => ?_⟩
      -- a name that is too long stands in no directory
      exact absurd hlong
        (Nat.not_lt.mpr ((hlimits start hstart hchild).name name (by simp)))
    · rw [if_neg hlong]
      rcases hchild : (Node.dir _).at? [name] with _ | child <;>
        simp [bind, Except.bind, hchild]

end SheetLint.Disk
