import SheetLint.Proofs.Inputs.Relocation

/-!
# Dependency directories

The patterns that exclude dependency directories are taken from the base directory, as all other
patterns are.  So they say nothing about what is outside of it, and below it they exclude exactly
the files behind a name of a dependency directory: `matchesPath_dependency`.

Resolution prunes its walks by these patterns and filters by them what it has found.  What comes out
is what would be found without them, less the files in dependency directories below the base
directory: `resolveInputs_dependencies`.  The proof adds the patterns to given exclusions one by one
(`Exclusions.ofPatterns_allPatterns`), and shows for each pattern that the walk with the additional
exclusions comes to the same files, less those that are excluded now (`InputPattern.expand_adds`).

Not every file in a dependency directory is excluded, though.  A pattern that leads out of the base
directory finds its files in a dependency directory there: `resolveInputs_outside`.  And where the
base directory has a backslash, the patterns that exclude do not match anything, while a literal
pattern still names its file: `resolveInputs_dependencies_backslash`.
-/

namespace SheetLint

open Glob (escape spelledBytes componentTokens)
open SheetLint.Path (below IsName IsProperName isAbsolute normalize)

/-! ### The names on a path -/

namespace Path

/-- The names between the slashes of a path. -/
def names (path : String) : List String :=
  ((Text.pieces '/' path.toList).filter fun piece => !piece.isEmpty).map String.ofList

lemma names_below {place : List String} (h : ∀ name ∈ place, IsName name) :
    names (below "/" place) = place := by
  by_cases hnil : place = []
  · subst hnil
    decide
  · have hne : (place.map String.toList).filter (fun piece => !piece.isEmpty) =
        place.map String.toList := by
      refine List.filter_eq_self.mpr fun piece hpiece => ?_
      obtain ⟨name, hname, rfl⟩ := List.mem_map.mp hpiece
      simpa using (h name hname).1
    rw [names, pieces_below h hnil, List.filter_cons_of_neg (by simp), hne, List.map_map]
    simp [Function.comp_def]

end Path

/-- Whether the path is one of a file in a dependency directory below the base directory. -/
def isInDependency (base path : String) : Bool :=
  ((Path.names path).dropPrefix? (Path.names base)).any fun inner =>
    inner.dropLast.any dependencyNames.contains

lemma isInDependency_of_names {base path : String} {inner : List String}
    (h : Path.names path = Path.names base ++ inner) {name : String}
    (hname : name ∈ dependencyNames) (hinner : name ∈ inner.dropLast) :
    isInDependency base path = true := by
  have hprefix : (Path.names path).dropPrefix? (Path.names base) = some inner :=
    List.dropPrefix?_eq_some_iff.mpr ⟨_, h, BEq.rfl⟩
  rw [isInDependency, hprefix, Option.any_some, List.any_eq_true]
  exact ⟨name, hinner, List.contains_iff_mem.mpr hname⟩

section

variable {base : List String} (hbase : ∀ name ∈ base, IsProperName name)

/-- The names lead through a directory of the given name below the base directory. -/
def LeadsThrough (base : List String) (name : String) (place : List String) : Prop :=
  ∃ inner, place = base ++ inner ∧ name ∈ inner.dropLast

include hbase in
lemma isInDependency_below {place : List String} (hplace : ∀ name ∈ place, IsName name) :
    isInDependency (below "/" base) (below "/" place) = true ↔
      ∃ name ∈ dependencyNames, LeadsThrough base name place := by
  have hnames := Path.isName_of_isProperName hbase
  rw [isInDependency, Path.names_below hplace, Path.names_below hnames, Option.any_eq_true]
  simp only [List.dropPrefix?_eq_some_iff, beq_iff_eq, exists_eq_right, List.any_eq_true,
    List.contains_iff_mem, LeadsThrough]
  constructor
  · rintro ⟨inner, hsplit, name, hmem, hname⟩
    exact ⟨name, hname, inner, hsplit, hmem⟩
  · rintro ⟨name, hname, inner, hsplit, hmem⟩
    exact ⟨inner, hsplit, name, hmem, hname⟩

/-! ### What the added patterns exclude -/

lemma spelledBytes_injective {front front' : List String} (hfront : ∀ name ∈ front, IsName name)
    (hfront' : ∀ name ∈ front', IsName name) (h : spelledBytes front = spelledBytes front') :
    front = front' := by
  have hnil {front : List String} (h : spelledBytes front = []) : front = [] := by
    cases front with
    | nil => rfl
    | cons name front => exact nomatch h
  by_cases hempty : front = []
  · subst hempty
    exact (hnil h.symm).symm
  by_cases hempty' : front' = []
  · subst hempty'
    exact hnil h
  · rw [← Glob.bytes_below hfront hempty, ← Glob.bytes_below hfront' hempty'] at h
    exact Path.below_injective hfront hfront' (Glob.bytes_injective h)

variable (hescapable : AreEscapable base) {name : String} (hname : name ∈ dependencyNames)

include hescapable hname in
/-- **What a pattern for dependency directories matches.**  It can be read, and it matches what is
in such a directory below the base directory, and nothing outside. -/
lemma matchesPath_dependency :
    ∃ glob, readPatternGlob (globBehind base (dependencyEnding name ++ Glob.subtreeEnding)) =
        .ok glob ∧
      ∀ place, (∀ name ∈ place, IsName name) → place ≠ [] →
        (glob.matchesPath (below "/" place) = true ↔ LeadsThrough base name place) := by
  have halike := alike_readPatternGlob hescapable
    (Or.inr ⟨_, rfl⟩ : Glob.IsBehind (dependencyEnding name ++ Glob.subtreeEnding))
  rw [(readTokens_dependencyEnding hname).2] at halike
  obtain ⟨glob, hread, hfits⟩ := halike.exists_of_ok
  refine ⟨glob, hread, fun place hplace hne => ?_⟩
  have hinside {inner : List String} (hsplit : place = base ++ inner) :
      glob.matchesPath (below "/" place) = true ↔ name ∈ inner.dropLast := by
    have hinner : ∀ name ∈ inner, IsName name := fun name hmem =>
      hplace name (hsplit ▸ List.mem_append_right base hmem)
    rw [hsplit, hfits inner hinner (hsplit ▸ hne),
      Glob.tokensDescribe_around_iff hinner (isName_of_mem_dependencyNames hname)]
  constructor
  · intro hmatches
    have hglob := (readPatternGlob_eq_ok_iff _ glob).mp hread
    -- A path that is matched is below the base directory, so it splits as `hinside` asks.
    obtain ⟨lower, hlower⟩ :=
      Glob.exists_of_matchesPath_escape hescapable.isEscapable hglob hmatches
    rw [Glob.bytes_below hplace hne, Glob.flatMap_spelled] at hlower
    obtain ⟨before, inner, hsplit, hbefore, -⟩ := Glob.exists_of_spelledBytes_eq hplace hlower
    have hbeforeNames : ∀ name ∈ before, IsName name := fun name hmem =>
      hplace name (hsplit ▸ List.mem_append_left inner hmem)
    rw [spelledBytes_injective hbeforeNames hescapable.isName hbefore] at hsplit
    exact ⟨inner, hsplit, (hinside hsplit).mp hmatches⟩
  · rintro ⟨inner, hsplit, hmem⟩
    exact (hinside hsplit).mpr hmem

namespace Exclusions

/-- The exclusions `more` exclude the files with the property `P` besides those that `x`
excludes. -/
structure Adds (x more : Exclusions) (P : List String → Prop) : Prop where
  areCovered : more.AreCovered
  excludesFile : ∀ place, (∀ name ∈ place, IsName name) → place ≠ [] →
    (more.excludesFile (below "/" place) = true ↔
      x.excludesFile (below "/" place) = true ∨ P place)

include hbase hescapable hname in
/-- **Excluding the directories of a name.** -/
lemma add_dependency {x : Exclusions} (hx : x.AreCovered) :
    ∃ more, x.add (InputPattern.ofText (below "/" base) (dependencyText name)) = .ok more ∧
      x.Adds more (LeadsThrough base name) := by
  have hbehind : Glob.IsBehind (dependencyEnding name ++ Glob.subtreeEnding) := Or.inr ⟨_, rfl⟩
  have hglob := globText_dependencyText hbase hname
  have hdirectoryText := InputPattern.directoryGlobText?_eq_map hbehind hglob
  rw [Text.without?_eq_some_iff.mpr rfl, Option.map_some] at hdirectoryText
  obtain ⟨file, hfile, hmatches⟩ := matchesPath_dependency hescapable hname
  have hdirectoryAlike := alike_readPatternGlob hescapable
    (Or.inr ⟨_, rfl⟩ : Glob.IsBehind (dependencyEnding name))
  rw [(readTokens_dependencyEnding hname).1] at hdirectoryAlike
  obtain ⟨directory, hdirectory, -⟩ := hdirectoryAlike.exists_of_ok
  have hadd : x.add (InputPattern.ofText (below "/" base) (dependencyText name)) =
      .ok ⟨x.files ++ [file], x.directories ++ [directory]⟩ := by
    rw [add, hglob, hfile, hdirectoryText, Option.mapM_some, hdirectory]
    rfl
  obtain ⟨_, -, -, hcovered⟩ := hx.add hadd
  refine ⟨_, hadd, hcovered, fun place hplace hne => ?_⟩
  rw [← hmatches place hplace hne]
  simp [Exclusions.excludesFile]

include hbase hescapable in
lemma foldlM_add_dependency {found : List String} (hfound : ∀ name ∈ found, name ∈ dependencyNames)
    {x : Exclusions} (hx : x.AreCovered) :
    ∃ more, ((found.map dependencyText).map (InputPattern.ofText (below "/" base))).foldlM add x =
        .ok more ∧
      x.Adds more fun place => ∃ name ∈ found, LeadsThrough base name place := by
  induction found generalizing x with
  | nil => exact ⟨x, rfl, hx, by simp⟩
  | cons name found ih =>
    obtain ⟨hname, hfound⟩ := List.forall_mem_cons.mp hfound
    obtain ⟨next, hadd, hnext⟩ := add_dependency hbase hescapable hname hx
    obtain ⟨more, hfold, hmore⟩ := ih hfound hnext.areCovered
    refine ⟨more, ?_, hmore.areCovered, fun place hplace hne => ?_⟩
    · rw [List.map_cons, List.map_cons, List.foldlM_cons, hadd]
      exact hfold
    · rw [hmore.excludesFile place hplace hne, hnext.excludesFile place hplace hne, or_assoc]
      simp

include hbase hescapable in
/-- **The exclusions with dependency directories and without.**  They can be read for the same
patterns, and differ in the files of dependency directories below the base directory. -/
lemma ofPatterns_allPatterns (patterns : List String) :
    (∃ error, ∀ disableDefaultIgnores, ofPatterns (((allPatterns disableDefaultIgnores
        patterns).filterMap negated?).map (InputPattern.ofText (below "/" base))) = .error error) ∨
    ∃ x more, x.AreCovered ∧
      ofPatterns (((allPatterns true patterns).filterMap negated?).map
        (InputPattern.ofText (below "/" base))) = .ok x ∧
      ofPatterns (((allPatterns false patterns).filterMap negated?).map
        (InputPattern.ofText (below "/" base))) = .ok more ∧
      x.Adds more fun place => ∃ name ∈ dependencyNames, LeadsThrough base name place := by
  simp only [filterMap_allPatterns, filterMap_dependencyPatterns, List.map_append, ofPatterns,
    List.foldlM_append, if_true, Bool.false_eq_true, if_false, List.map_nil, List.foldlM_nil]
  cases hx : (List.map (InputPattern.ofText (below "/" base))
      (patterns.filterMap negated?)).foldlM add none with
  | error error => exact Or.inl ⟨error, fun _ => rfl⟩
  | ok x =>
    obtain ⟨-, hcovered⟩ := ofPatterns_eq_ok hx
    obtain ⟨more, hfold, hmore⟩ :=
      foldlM_add_dependency hbase hescapable (fun _ hname => hname) hcovered
    refine Or.inr ⟨x, more, hcovered, rfl, ?_, hmore⟩
    simp only [bind, Except.bind]
    exact hfold

end Exclusions

end

/-! ### One pattern -/

namespace InputPattern

section

variable {d : Disk} (hd : d.IsFileSystem) {x more : Exclusions} (hx : x.AreCovered)
  {P : List String → Prop} (hmore : x.Adds more P) {p : InputPattern} {names : List String}
  (hnames : ∀ name ∈ names, IsName name) (hroot : p.root = below "/" names)

include hd hx hmore hnames hroot in
/-- **A walk with further exclusions** comes to the same files, up to those that are excluded: what
it prunes it would have to leave out. -/
lemma filter_places_eq :
    (places (walkAdmits more p.namesHidden) p.root (walkStart d p.root)).filter
        (fun place => !more.excludesFile (below p.root place)) =
      (places (walkAdmits x p.namesHidden) p.root (walkStart d p.root)).filter
        fun place => !more.excludesFile (below p.root place) := by
  have htree := isTree_walkStart hd.isTree p.root
  have hsorted (x : Exclusions) := pairwise_places (walkAdmits x p.namesHidden) htree p.root
  have hasymm : Std.Asymm PlaceBefore := ⟨fun _ _ => List.lt_asymm⟩
  -- Both lists are sorted, so it is enough to compare their members.
  refine List.Pairwise.eq_of_mem_iff (r := PlaceBefore) ((hsorted more).filter _)
    ((hsorted x).filter _) fun place => ?_
  simp only [List.mem_filter, mem_places_iff _ htree, Bool.not_eq_true']
  refine and_congr_left fun hkept => and_congr_right ?_
  rintro ⟨content, hfile⟩
  have hplace := htree.isName hfile
  have hbelow : below p.root place = below "/" (names ++ place) := by
    rw [hroot, Path.below_append]
  have habsolute : isAbsolute (below p.root place) = true := by
    rw [hbelow]
    exact Path.isAbsolute_below (by decide) _
  have hkept' : x.excludesFile (below p.root place) = false := by
    rw [← Bool.not_eq_true, hbelow] at hkept ⊢
    exact fun hexcluded => hkept ((hmore.excludesFile _
      (List.forall_mem_append.mpr ⟨hnames, hplace⟩)
      (ne_nil_of_at?_walkStart hd (hroot ▸ hfile))).mpr (Or.inl hexcluded))
  -- a file that is kept is pruned by neither of the exclusions
  rw [admitted_iff hmore.areCovered p.namesHidden hplace hfile habsolute hkept,
    admitted_iff hx p.namesHidden hplace hfile habsolute hkept']

include hd hx hmore hnames hroot in
/-- **A pattern with further exclusions** names the same files, less those that are excluded now. -/
lemma expand_adds {excludes : String → Bool}
    (hexcludes : ∀ place, (∀ name ∈ place, IsName name) →
      (excludes (below "/" place) = true ↔ P place)) :
    p.expand d more =
      (p.expand d x).map fun files => files.filter fun path => !excludes path := by
  have hsplit {place : List String} (hplace : ∀ name ∈ place, IsName name) (hne : place ≠ []) :
      more.excludesFile (below "/" place) =
        (x.excludesFile (below "/" place) || excludes (below "/" place)) := by
    rw [Bool.eq_iff_iff, Bool.or_eq_true, hmore.excludesFile place hplace hne,
      hexcludes place hplace]
  unfold expand
  cases p.isLiteral with
  | true =>
    rw [if_pos rfl, if_pos rfl, Except.map]
    cases hfile : d.isNonDirectory p.root with
    | false => rfl
    | true =>
      rw [hroot, hsplit hnames (ne_nil_of_isNonDirectory hd (hroot ▸ hfile))]
      cases x.excludesFile (below "/" names) <;> cases hpath : excludes (below "/" names) <;>
        simp [hpath]
  | false =>
    rw [if_neg Bool.false_ne_true, if_neg Bool.false_ne_true]
    cases readPatternGlob p.globText with
    | error error => rfl
    | ok glob =>
      simp only [bind, Except.bind, Except.map, walk_eq_map_places, List.filter_map]
      have htree := isTree_walkStart hd.isTree p.root
      have hpruned := congrArg (List.filter fun place => glob.matchesPath (below p.root place))
        (filter_places_eq hd hx hmore hnames hroot)
      simp only [List.filter_filter] at hpruned ⊢
      -- what was pruned is left out by the filter, and the filter is split in two
      refine congrArg (fun found => Except.ok (List.map (below p.root) found))
        (hpruned.trans (List.filter_congr fun place hplace => ?_))
      obtain ⟨⟨content, hfile⟩, -⟩ := (mem_places_iff _ htree _ _).mp hplace
      have hne := ne_nil_of_at?_walkStart hd (hroot ▸ hfile)
      have hall := List.forall_mem_append.mpr ⟨hnames, htree.isName hfile⟩
      simp only [Function.comp, hroot, ← Path.below_append, hsplit hall hne, Bool.not_or]
      ac_rfl

end

end InputPattern

/-! ### All patterns -/

lemma mapM_map {ε α β : Type} {f g : α → Except ε β} {h : β → β} {xs : List α}
    (heq : ∀ x ∈ xs, g x = (f x).map h) : xs.mapM g = (xs.mapM f).map (List.map h) := by
  induction xs with
  | nil => rfl
  | cons x xs ih =>
    obtain ⟨hfirst, hrest⟩ := List.forall_mem_cons.mp heq
    rw [List.mapM_cons, List.mapM_cons, hfirst, ih hrest]
    cases f x with
    | error error => rfl
    | ok y =>
      cases xs.mapM f <;> rfl

lemma exists_areEscapable_normalize {base : String} (hbase : isAbsolute base = true)
    (hescapable : ∀ c ∈ (normalize base).toList, Glob.IsEscapable c) :
    ∃ front, normalize base = below "/" front ∧ (∀ name ∈ front, IsProperName name) ∧
      AreEscapable front := by
  have hplain : IsPlainBase (normalize base) :=
    ⟨Path.isAbsolute_normalize hbase, Path.normalize_normalize hbase, hescapable⟩
  obtain ⟨front, hfront, hisFront⟩ := hplain.exists_isFront (List.forall_mem_nil _)
  exact ⟨front, hfront, hisFront.isProperName, hisFront.isEscapable⟩

/-- What is returned with dependency directories excluded. -/
lemma resolveInputs_filter_dependencies {d : Disk} (hd : d.IsFileSystem) {base : String}
    (hbase : isAbsolute base = true)
    (hescapable : ∀ c ∈ (normalize base).toList, Glob.IsEscapable c) (patterns : List String)
    (ignore : IgnoreRules) :
    resolveInputs d base false patterns ignore =
      (resolveInputs d base true patterns ignore).map fun files =>
        files.filter fun path => !isInDependency (normalize base) path := by
  obtain ⟨front, hfront, hproper, hfrontEscapable⟩ :=
    exists_areEscapable_normalize hbase hescapable
  have hoftext : InputPattern.ofText base = InputPattern.ofText (below "/" front) := by
    rw [← hfront]
    exact (funext (InputPattern.ofText_normalize hbase)).symm
  rw [resolveInputs, resolveInputs, hoftext, hfront, filter_allPatterns, filter_allPatterns]
  rcases Exclusions.ofPatterns_allPatterns hproper hfrontEscapable patterns with
    ⟨error, herror⟩ | ⟨x, more, hx, hread, hreadMore, hmore⟩
  · rw [herror, herror]
    rfl
  rw [hread, hreadMore]
  simp only [bind, Except.bind]
  rw [mapM_map (f := fun p : InputPattern => p.expand d x)
    (h := List.filter fun path => !isInDependency (below "/" front) path)]
  · cases hlists : List.mapM (fun p : InputPattern => p.expand d x) _ with
    | error error => rfl
    | ok lists =>
      simp only [Except.map, firstSeen_eq_eraseDups, ← List.filter_flatten, ← eraseDups_filter,
        List.filter_filter, Bool.and_comm]
  · intro p hp
    obtain ⟨text, -, rfl⟩ := List.mem_map.mp hp
    obtain ⟨names, hnames, hroot⟩ := InputPattern.exists_root_ofText
      (Path.isAbsolute_below (by decide : isAbsolute "/" = true) front) text
    exact InputPattern.expand_adds hd hx hmore hnames hroot fun place hplace =>
      isInDependency_below hproper hplace

/-- **Dependency directories below the base directory are excluded, and nothing else**, if the base
directory has no backslashes.  Unless that is switched off, no file is returned that is in such a
directory behind the base directory.  What is returned is what would be returned with the exclusion
switched off, less these files. -/
theorem resolveInputs_dependencies {d : Disk} (hd : d.IsFileSystem) {base : String}
    (hbase : isAbsolute base = true)
    (hescapable : ∀ c ∈ (normalize base).toList, Glob.IsEscapable c) (patterns : List String)
    (ignore : IgnoreRules) :
    (∀ files, resolveInputs d base false patterns ignore = .ok files →
      ∀ path ∈ files, ∀ inner, Path.names path = Path.names (normalize base) ++ inner →
        ∀ name ∈ dependencyNames, name ∉ inner.dropLast) ∧
    resolveInputs d base false patterns ignore =
      (resolveInputs d base true patterns ignore).map fun files =>
        files.filter fun path => !isInDependency (normalize base) path := by
  have hsplit := resolveInputs_filter_dependencies hd hbase hescapable patterns ignore
  refine ⟨fun files hfiles path hpath inner hinner name hname hmem => ?_, hsplit⟩
  rw [hsplit] at hfiles
  obtain ⟨all, -, rfl⟩ := exists_of_map_eq_ok hfiles
  have hkept := (List.mem_filter.mp hpath).2
  rw [Bool.not_eq_true', ← Bool.not_eq_true] at hkept
  exact hkept (isInDependency_of_names hinner hname hmem)

/-- A file system with a stylesheet in a dependency directory and a directory beside it. -/
def oneDependency : Disk :=
  ⟨.dir [("node_modules", .dir [("a.css", .file .empty)]), ("sub", .dir [])], []⟩

lemma isFileSystem_oneDependency : oneDependency.IsFileSystem := by
  have hname : IsName "node_modules" ∧ IsName "a.css" ∧ IsName "sub" := by
    unfold IsName
    decide
  obtain ⟨hmodules, ha, hsub⟩ := hname
  have hinner : (Disk.Node.dir [("a.css", .file .empty)]).IsTree := by
    apply Disk.Node.isTree_dir
    · unfold Keyed.Sorted
      decide
    · simpa using ⟨ha, Disk.Node.isTree_file .empty⟩
  refine ⟨rfl, ?_⟩
  apply Disk.Node.isTree_dir
  · unfold Keyed.Sorted
    decide
  · simpa using ⟨⟨hmodules, hinner⟩, hsub, Disk.Node.isTree_emptyDir⟩

/-- From the root directory the stylesheet is found only if dependency directories are not
excluded. -/
theorem resolveInputs_dependencies_below :
    resolveInputs oneDependency "/" true ["**"] (.none "/") = .ok ["/node_modules/a.css"] ∧
      resolveInputs oneDependency "/" false ["**"] (.none "/") = .ok [] := by
  have hall : resolveInputs oneDependency "/" true ["**"] (.none "/") =
      .ok ["/node_modules/a.css"] := by
    apply eq_ok_of_toOption
    decide +kernel
  have hroot : (normalize "/").toList = ['/'] := by
    decide
  have hescapable : ∀ c ∈ (normalize "/").toList, Glob.IsEscapable c := by
    rw [hroot, List.forall_mem_singleton]
    unfold Glob.IsEscapable
    decide
  have hsplit := (resolveInputs_dependencies isFileSystem_oneDependency (by decide) hescapable
    ["**"] (.none "/")).2
  rw [hall] at hsplit
  refine ⟨hall, hsplit.trans (congrArg Except.ok ?_)⟩
  decide

/-- **Outside of the base directory nothing is excluded.**  From a directory beside it, the
stylesheet in the dependency directory is found. -/
theorem resolveInputs_outside :
    isAbsolute "/sub" = true ∧
      resolveInputs oneDependency "/sub" false ["../node_modules/a.css"] (.none "/sub") =
        .ok ["/node_modules/a.css"] ∧
      "node_modules" ∈ (Path.names "/node_modules/a.css").dropLast ∧
      "node_modules" ∉ Path.names "/sub" := by
  refine ⟨by decide, ?_, by decide, by decide⟩
  apply eq_ok_of_toOption
  decide +kernel

/-- **Below a base directory with a backslash nothing is excluded.**  The stylesheet in the
dependency directory is named literally, and is found. -/
theorem resolveInputs_dependencies_backslash :
    isAbsolute "/x\\y" = true ∧
      resolveInputs
        ⟨.dir [("x\\y", .dir [("node_modules", .dir [("a.css", .file .empty)])])], []⟩
        "/x\\y" false ["node_modules/a.css"] (.none "/x\\y") =
          .ok ["/x\\y/node_modules/a.css"] ∧
      "node_modules" ∈ (Path.names "/x\\y/node_modules/a.css").dropLast ∧
      "node_modules" ∉ Path.names "/x\\y" := by
  refine ⟨by decide, ?_, by decide, by decide⟩
  apply eq_ok_of_toOption
  decide +kernel

end SheetLint
