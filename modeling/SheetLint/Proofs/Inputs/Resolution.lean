import SheetLint.Proofs.Distinct
import SheetLint.Proofs.Inputs.Patterns
import SheetLint.Proofs.Inputs.Walk

/-!
# The input files of a run are those that its patterns describe

What resolution does by splitting patterns, walking, pruning and filtering can be said for each
pattern by itself, `InputPattern.FilesOf`.  A literal pattern names one path; any other one names
the files below its root that its glob matches.  Of these files the dotted ones are passed over
unless the pattern spells a dot, and those that a negated pattern or the ignore rules exclude are
left out, `IsKept`.

A walk does not enter some directories.  `excludesFile_of_excludesDirectory` is why nothing is
missed: whatever is in them would be excluded anyway.  So no step to a file that is kept is pruned,
but for dotted names (`admitted_iff`).

The walk tests its root in a way of its own: a link that leads to a directory is followed there, one
that leads to a file is not.  `walkStart` has what the walk begins with, and `walkStart_cases`
compares it with what the path leads to.

Each pattern is expanded by itself, with the same exclusions (`filesOf_expand`).  The answer is the
lists of all patterns one after another, each file where it occurs first:
`resolveInputs_eq_eraseDups`.
-/

namespace SheetLint

open Disk (Node)

/-- A file is neither excluded by a negated pattern nor ignored. -/
def IsKept (negatives : List Glob) (ignore : IgnoreRules) (path : String) : Prop :=
  (∀ glob ∈ negatives, glob.matchesPath path = false) ∧ ignore.isIgnored path = false

lemma isKept_iff (x : Exclusions) (ignore : IgnoreRules) (path : String) :
    IsKept x.files ignore path ↔
      x.excludesFile path = false ∧ ignore.isIgnored path = false := by
  simp [IsKept, Exclusions.excludesFile]

section

variable (d : Disk) (kept : String → Prop) (p : InputPattern)

/-- The root of a pattern is a file, or a link, that is kept. -/
def IsNamed : Prop :=
  ∃ node, d.entry p.root = .ok node ∧ node.isDir = false ∧ kept p.root

/-- Names that lead from the root of a pattern to a file that its glob describes and that is
kept. -/
structure IsFound (glob : Glob) (place : List String) : Prop where
  isBelow : place ≠ []
  isFile : ∃ start content, d.node p.root = .ok start ∧ start.at? place = some (.file content)
  isMatched : glob.matchesPath (Path.below p.root place) = true
  isVisible : p.namesHidden = true ∨ ∀ name ∈ place, name.toList.head? ≠ some '.'
  isKept : kept (Path.below p.root place)

/-- **The files of a pattern.**  They are listed in the order of their names compared by their
bytes. -/
inductive FilesOf : List String → Prop where
  | named (hp : p.isLiteral = true) (h : IsNamed d kept p) : FilesOf [p.root]
  | unnamed (hp : p.isLiteral = true) (h : ¬ IsNamed d kept p) : FilesOf []
  | found (hp : p.isLiteral = false) {glob : Glob} (hglob : p.HasGlob glob)
    {places : List (List String)} (hsorted : places.Pairwise PlaceBefore)
    (hplaces : ∀ place, place ∈ places ↔ IsFound d kept p glob place) :
    FilesOf (places.map (Path.below p.root))

end

/-! ### Walks -/

lemma Disk.Node.IsTree.isName {n m : Node} (h : n.IsTree) {place : List String}
    (hm : n.at? place = some m) : ∀ name ∈ place, Path.IsName name := by
  induction place generalizing n with
  | nil => exact fun _ hname => nomatch hname
  | cons name rest ih =>
    cases n with
    | file | link => exact nomatch hm
    | dir entries =>
      rw [Node.at?, Option.bind_eq_some_iff] at hm
      obtain ⟨child, hchild, hm⟩ := hm
      have hmem := (h.mem_entries_iff name child).mpr hchild
      intro other hother
      rcases List.mem_cons.mp hother with rfl | hother
      · exact (h [] entries rfl).2 _ hmem
      · exact ih (h.child hmem).2 hm other hother

/-- No step to a file that is not excluded is pruned. -/
lemma admitted_iff {x : Exclusions} (hx : x.AreCovered) (namesHidden : Bool) {path : String}
    {node : Node} {place : List String} {content : ByteArray}
    (hnames : ∀ name ∈ place, Path.IsName name) (hfile : node.at? place = some (.file content))
    (habsolute : Path.isAbsolute (Path.below path place) = true)
    (hkept : x.excludesFile (Path.below path place) = false) :
    Admitted (walkAdmits x namesHidden) path node place ↔
      namesHidden = true ∨ ∀ name ∈ place, name.toList.head? ≠ some '.' := by
  induction place generalizing path node with
  | nil => simp [Admitted]
  | cons name rest ih =>
    rw [Node.at?, Option.bind_eq_some_iff] at hfile
    obtain ⟨child, hchild, hfile⟩ := hfile
    have hrest : ∀ n ∈ rest, Path.IsName n := fun n hn => hnames n (List.mem_cons_of_mem name hn)
    -- The next directory is not pruned: a file in it would be excluded, but this one is not.
    have hentered : (child.isDir && x.excludesDirectory (Path.join path name)) = false := by
      rw [← Bool.not_eq_true, Bool.and_eq_true]
      rintro ⟨hdir, hexcluded⟩
      have hne : rest ≠ [] := by
        rintro rfl
        cases hfile
        exact Bool.false_ne_true hdir
      obtain ⟨lower, hlower⟩ :=
        Path.bytes_below (Path.not_endsInSlash_join path (hnames name List.mem_cons_self)) hrest hne
      have hexcludedFile := x.excludesFile_of_excludesDirectory hx hexcluded hlower habsolute
      rw [← Path.below_cons, hkept] at hexcludedFile
      exact Bool.false_ne_true hexcludedFile
    have hadmits : walkAdmits x namesHidden name (Path.join path name) child = true ↔
        namesHidden = true ∨ name.toList.head? ≠ some '.' := by
      simp [walkAdmits, hentered]
    have hlater := ih hrest hfile habsolute hkept
    -- a directory has one entry of the name
    have hunique : Admitted (walkAdmits x namesHidden) path node (name :: rest) ↔
        walkAdmits x namesHidden name (Path.join path name) child = true ∧
          Admitted (walkAdmits x namesHidden) (Path.join path name) child rest := by
      constructor
      · rintro ⟨other, hother, hsteps⟩
        cases hchild.symm.trans hother
        exact hsteps
      · exact fun hsteps => ⟨child, hchild, hsteps⟩
    rw [hunique, hadmits, hlater, List.forall_mem_cons]
    by_cases hhidden : namesHidden = true
    · simp [hhidden]
    · simp [hhidden]

lemma walkStart_cases (d : Disk) (root : String) :
    d.node root = .ok (walkStart d root) ∨
      (∀ start, d.node root = .ok start → start.isDir = false) ∧
        walkStart d root = .emptyDir := by
  unfold walkStart
  rcases d.entry_cases root with ⟨target, hlink⟩ | heq
  · rw [hlink]
    cases hnode : d.node root with
    | error error => exact Or.inr ⟨fun _ h => (nomatch h), rfl⟩
    | ok start =>
      cases start with
      | dir entries => exact Or.inl rfl
      | file | link =>
        refine Or.inr ⟨fun _ h => ?_, rfl⟩
        cases h
        rfl
  · rw [← heq]
    cases hentry : d.entry root with
    | error error => exact Or.inr ⟨fun _ h => (nomatch h), rfl⟩
    | ok start =>
      cases start with
      | file | dir => exact Or.inl rfl
      | link target =>
        refine Or.inr ⟨fun _ h => ?_, rfl⟩
        cases h
        rfl

lemma walkStart_root {d : Disk} (hd : d.IsFileSystem) : walkStart d "/" = d.tree := by
  have hdir := hd.isDir
  rw [walkStart, Disk.entry_root]
  cases htree : d.tree with
  | file | dir => rfl
  | link target =>
    rw [htree] at hdir
    exact nomatch hdir

lemma walkStart_at?_cons (d : Disk) (root name : String) (rest : List String) (node : Node) :
    (walkStart d root).at? (name :: rest) = some node ↔
      ∃ start, d.node root = .ok start ∧ start.at? (name :: rest) = some node := by
  rcases walkStart_cases d root with hstart | ⟨hnone, hempty⟩
  · constructor
    · exact fun h => ⟨_, hstart, h⟩
    · rintro ⟨start, hnode, h⟩
      cases hstart.symm.trans hnode
      exact h
  · rw [hempty]
    constructor
    · exact fun h => nomatch h
    · rintro ⟨start, hnode, h⟩
      rw [Node.at?_cons_of_not_isDir (hnone start hnode)] at h
      exact nomatch h

lemma isTree_walkStart {d : Disk} (hd : d.tree.IsTree) (root : String) :
    (walkStart d root).IsTree := by
  rcases walkStart_cases d root with hstart | ⟨-, hempty⟩
  · obtain ⟨place, hplace⟩ := Disk.exists_at?_of_node hstart
    exact hd.at? hplace
  · rw [hempty]
    exact Node.isTree_emptyDir

/-! ### One pattern -/

namespace InputPattern

variable {d : Disk} {p : InputPattern}

/-- The root itself is not found, even if it is a file. -/
lemma not_matches_of_walkStart (hd : d.IsFileSystem) (hp : p.isLiteral = false) (hroot : p.IsRooted)
    {glob : Glob} (hglob : p.HasGlob glob) {content : ByteArray}
    (hfile : walkStart d p.root = .file content) : glob.matchesPath p.root = false := by
  rcases hroot.endsInSlash with hslash | hname
  · have hdir := hd.isDir
    rw [← walkStart_root hd, ← hslash, hfile] at hdir
    exact nomatch hdir
  · exact not_matchesPath_root hp hname hglob

/-- The files of a pattern are those of the walk that its glob matches and that are kept. -/
lemma isFound_iff (hd : d.IsFileSystem) (hp : p.isLiteral = false) (hroot : p.IsRooted)
    {x : Exclusions} (hx : x.AreCovered) (ignore : IgnoreRules) {glob : Glob}
    (hglob : p.HasGlob glob) (place : List String) :
    IsFound d (IsKept x.files ignore) p glob place ↔
      place ∈ places (walkAdmits x p.namesHidden) p.root (walkStart d p.root) ∧
        glob.matchesPath (Path.below p.root place) = true ∧
        IsKept x.files ignore (Path.below p.root place) := by
  have htree := isTree_walkStart hd.isTree p.root
  have hadmitted : ∀ {content : ByteArray},
      (walkStart d p.root).at? place = some (.file content) →
        IsKept x.files ignore (Path.below p.root place) →
          (Admitted (walkAdmits x p.namesHidden) p.root (walkStart d p.root) place ↔
            p.namesHidden = true ∨ ∀ name ∈ place, name.toList.head? ≠ some '.') := by
    intro content hfile hkept
    exact admitted_iff hx p.namesHidden (htree.isName hfile) hfile
      (Path.isAbsolute_below hroot.isAbsolute place) ((isKept_iff x ignore _).mp hkept).1
  rw [mem_places_iff _ htree]
  cases place with
  | nil =>
    constructor
    · exact fun h => absurd rfl h.isBelow
    -- the root itself, if it is a file: its own glob does not match it
    · rintro ⟨⟨⟨content, hfile⟩, -⟩, hmatches, -⟩
      have hroot' := not_matches_of_walkStart hd hp hroot hglob (Option.some.inj hfile)
      have hmatches : glob.matchesPath p.root = true := hmatches
      rw [hroot'] at hmatches
      exact nomatch hmatches
  | cons name rest =>
    simp only [walkStart_at?_cons] at hadmitted ⊢
    constructor
    · rintro ⟨-, ⟨start, content, hstart, hfile⟩, hmatches, hvisible, hkept⟩
      have hsteps := (hadmitted ⟨start, hstart, hfile⟩ hkept).mpr hvisible
      exact ⟨⟨⟨content, start, hstart, hfile⟩, hsteps⟩, hmatches, hkept⟩
    · rintro ⟨⟨⟨content, start, hstart, hfile⟩, hsteps⟩, hmatches, hkept⟩
      have hvisible := (hadmitted ⟨start, hstart, hfile⟩ hkept).mp hsteps
      exact ⟨List.cons_ne_nil _ _, ⟨start, content, hstart, hfile⟩, hmatches, hvisible, hkept⟩

/-- **What a pattern names.**  Expanding a pattern and leaving out what is ignored gives its
files. -/
lemma filesOf_expand (hd : d.IsFileSystem) (hroot : p.IsRooted) {x : Exclusions}
    (hx : x.AreCovered) (ignore : IgnoreRules) {paths : List String}
    (h : p.expand d x = .ok paths) :
    FilesOf d (IsKept x.files ignore) p (paths.filter fun path => !ignore.isIgnored path) := by
  unfold expand at h
  cases hp : p.isLiteral with
  | true =>
    rw [if_pos hp] at h
    cases h
    have hnamed : IsNamed d (IsKept x.files ignore) p ↔
        (d.isNonDirectory p.root && !x.excludesFile p.root) = true ∧
          ignore.isIgnored p.root = false := by
      unfold IsNamed Disk.isNonDirectory
      simp only [isKept_iff]
      cases d.entry p.root <;> simp [and_assoc]
    by_cases h : IsNamed d (IsKept x.files ignore) p
    · obtain ⟨hfile, hignored⟩ := hnamed.mp h
      rw [if_pos hfile, List.filter_singleton, hignored]
      exact .named hp h
    -- nothing is left, whichever of the two tests has failed
    · have hnil : (if d.isNonDirectory p.root && !x.excludesFile p.root then [p.root]
          else []).filter (fun path => !ignore.isIgnored path) = [] := by
        split
        · next hfile =>
          have hignored : ignore.isIgnored p.root = true := by
            rw [← Bool.not_eq_false]
            exact fun hignored => h (hnamed.mpr ⟨hfile, hignored⟩)
          simp [hignored]
        · rfl
      rw [hnil]
      exact .unnamed hp h
  | false =>
    rw [if_neg (by simp [hp])] at h
    obtain ⟨glob, hread, h⟩ := exists_of_bind_eq_ok h
    cases h
    have hglob : p.HasGlob glob := (readPatternGlob_eq_ok_iff _ _).mp hread
    have htree := isTree_walkStart hd.isTree p.root
    rw [walk_eq_map_places, List.filter_map, List.filter_map]
    refine .found hp hglob (((pairwise_places _ htree p.root).filter _).filter _) ?_
    intro place
    rw [List.mem_filter, List.mem_filter]
    rw [isFound_iff hd hp hroot hx ignore hglob, isKept_iff]
    simp only [Function.comp, Bool.and_eq_true, Bool.not_eq_true']
    tauto

end InputPattern

/-! ### All patterns -/

lemma foldl_firstSeen (seen paths : List String) :
    paths.foldl (fun seen path => if seen.contains path then seen else seen ++ [path]) seen =
      seen ++ (paths.filter fun path => !seen.contains path).eraseDups := by
  induction paths generalizing seen with
  | nil => simp
  | cons path paths ih =>
    rw [List.foldl_cons, ih]
    by_cases hseen : seen.contains path = true
    · rw [if_pos hseen, List.filter_cons_of_neg (by simpa using hseen)]
    · have hfilter : (paths.filter fun other => !(seen ++ [path]).contains other) =
          (paths.filter fun other => !seen.contains other).filter fun other => !other == path := by
        rw [List.filter_filter]
        congr 1
        funext other
        simp [Bool.and_comm, Bool.beq_eq_decide_eq]
      rw [if_neg hseen, List.filter_cons_of_pos (by simpa using hseen), List.eraseDups_cons,
        hfilter, List.append_assoc]
      rfl

lemma firstSeen_eq_eraseDups (paths : List String) : firstSeen paths = paths.eraseDups := by
  rw [firstSeen, foldl_firstSeen, List.nil_append]
  simp

lemma nodup_firstSeen (paths : List String) : (firstSeen paths).Nodup := by
  rw [firstSeen_eq_eraseDups]
  exact nodup_eraseDups paths

/-- **No file is named twice.** -/
lemma nodup_of_resolveInputs {d : Disk} {base : String} {disableDefaultIgnores : Bool}
    {patterns files : List String} {ignore : IgnoreRules}
    (h : resolveInputs d base disableDefaultIgnores patterns ignore = .ok files) : files.Nodup := by
  unfold resolveInputs at h
  obtain ⟨x, -, h⟩ := exists_of_bind_eq_ok h
  obtain ⟨paths, -, h⟩ := exists_of_bind_eq_ok h
  cases h
  exact nodup_firstSeen _

/-- **Resolution is exact.**  When resolution succeeds, its answer lists the files of the patterns
that are not negated, one pattern after another, each file where it occurs first.  What the negated
patterns describe is left out, and so is what is in dependency directories unless that is switched
off. -/
theorem resolveInputs_eq_eraseDups {d : Disk} (hd : d.IsFileSystem) {base : String}
    (hbase : Path.isAbsolute base = true) {patterns : List String} {disableDefaultIgnores : Bool}
    {ignore : IgnoreRules} {files : List String}
    (h : resolveInputs d base disableDefaultIgnores patterns ignore = .ok files) :
    ∃ negatives lists,
      List.Forall₂ (fun text glob => (InputPattern.ofText base text).HasGlob glob)
        (patterns.filterMap negated? ++
          if disableDefaultIgnores then [] else ["**/node_modules/**", "**/bower_components/**"])
        negatives ∧
      List.Forall₂
        (fun text list =>
          FilesOf d (IsKept negatives ignore) (InputPattern.ofText base text) list)
        (patterns.filter fun text => (negated? text).isNone) lists ∧
      files = lists.flatten.eraseDups := by
  have hdefaults : dependencyPatterns.filterMap negated? =
      ["**/node_modules/**", "**/bower_components/**"] := by decide
  unfold resolveInputs at h
  obtain ⟨x, hexclusions, h⟩ := exists_of_bind_eq_ok h
  obtain ⟨paths, hpaths, h⟩ := exists_of_bind_eq_ok h
  cases h
  rw [filter_allPatterns] at hpaths
  rw [filterMap_allPatterns, hdefaults] at hexclusions
  obtain ⟨hnegatives, hx⟩ := Exclusions.ofPatterns_eq_ok hexclusions
  refine ⟨x.files, paths.map (·.filter fun path => !ignore.isIgnored path), ?_, ?_, ?_⟩
  · exact List.forall₂_map_left_iff.mp hnegatives
  · rw [List.forall₂_map_right_iff]
    refine (List.forall₂_map_left_iff.mp (forall₂_of_mapM hpaths)).imp fun text list hexpand => ?_
    exact InputPattern.filesOf_expand hd (InputPattern.isRooted_ofText hbase text) hx ignore hexpand
  · rw [firstSeen_eq_eraseDups, List.filter_flatten]

/-- A file system with a file in each of two directories, one of which is for dependencies, and one
beside them. -/
def threeFiles : Disk :=
  ⟨.dir [("a", .file .empty), ("n", .dir [("b", .file .empty)]),
    ("node_modules", .dir [("c", .file .empty)])], []⟩

lemma isFileSystem_threeFiles : threeFiles.IsFileSystem := by
  have hname : ∀ name ∈ ["a", "b", "c", "n", "node_modules"], Path.IsName name := by
    unfold Path.IsName
    decide
  have hfile : (Node.file .empty).IsTree := Node.isTree_file .empty
  have hinner {name : String} (h : Path.IsName name) : (Node.dir [(name, .file .empty)]).IsTree :=
    Node.isTree_dir (List.pairwise_singleton _ _) (by simpa using ⟨h, hfile⟩)
  refine ⟨rfl, ?_⟩
  apply Node.isTree_dir
  · unfold Keyed.Sorted
    decide
  · simp only [List.forall_mem_cons] at hname ⊢
    obtain ⟨ha, hb, hc, hn, hmodules, -⟩ := hname
    exact ⟨⟨ha, hfile⟩, ⟨hn, hinner hb⟩, ⟨hmodules, hinner hc⟩, nofun⟩

/-- Of three files one is excluded by a negated pattern and one by the exclusion of dependency
directories, which can be switched off. -/
theorem resolveInputs_eq_eraseDups_threeFiles :
    resolveInputs threeFiles "/" true ["**", "!n/**"] (.none "/") =
        .ok ["/a", "/node_modules/c"] ∧
      resolveInputs threeFiles "/" false ["**", "!n/**"] (.none "/") = .ok ["/a"] ∧
      ∃ negatives lists,
        List.Forall₂ (fun text glob => (InputPattern.ofText "/" text).HasGlob glob)
          ["n/**", "**/node_modules/**", "**/bower_components/**"] negatives ∧
        List.Forall₂
          (fun text list =>
            FilesOf threeFiles (IsKept negatives (.none "/")) (InputPattern.ofText "/" text) list)
          ["**"] lists ∧
        ["/a"] = lists.flatten.eraseDups := by
  have hall : resolveInputs threeFiles "/" true ["**", "!n/**"] (.none "/") =
      .ok ["/a", "/node_modules/c"] := by
    apply eq_ok_of_toOption
    decide +kernel
  have hfiles : resolveInputs threeFiles "/" false ["**", "!n/**"] (.none "/") = .ok ["/a"] := by
    apply eq_ok_of_toOption
    decide +kernel
  have hnegatives : ["**", "!n/**"].filterMap negated? = ["n/**"] := by decide
  have hpositives : (["**", "!n/**"].filter fun text => (negated? text).isNone) = ["**"] := by
    decide
  have hexact := resolveInputs_eq_eraseDups isFileSystem_threeFiles (by decide) hfiles
  rw [hnegatives, hpositives] at hexact
  exact ⟨hall, hfiles, hexact⟩

end SheetLint
