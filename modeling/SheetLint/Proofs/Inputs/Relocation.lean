import SheetLint.Proofs.Inputs.BaseDirectory
import SheetLint.Proofs.Inputs.Renaming

/-!
# The same files in another place

A project can be moved to another base directory, and the directories at the front of its patterns
can be renamed.  Where the names of these directories have no backslashes, that changes nothing but
the paths: resolution fails in both places, or names the same files below the one directory and
below the other, in the same order: `resolveInputs_relocated`.  All other characters of globs are
escaped in a base directory, and stand for themselves.

The proof compares the two calls part by part.  The globs of the patterns agree about what is below
the two directories (`forall₂_globsAgree`), those that exclude files included; then so do the walks,
which are about the same tree; and what is found is filtered in the same way
(`alike_resolveInputs`).

A backslash is not escaped.  A pattern misses all its files below a base directory that has one, and
so does a pattern that has one at its front: `resolveInputs_backslash`.
-/

namespace SheetLint

open Disk (SameBelow)
open SheetLint.Path (below IsName IsProperName isAbsolute join normalize)

/-! ### Ignore rules -/

/-- **Ignore rules see the same of a path** below any base directory. -/
lemma IgnoreRules.isIgnored_below {base base' : List String}
    (hbase : ∀ name ∈ base, IsProperName name) (hbase' : ∀ name ∈ base', IsProperName name)
    (rules : List IgnoreRule) {place : List String} (hplace : ∀ name ∈ place, IsName name) :
    isIgnored ⟨below "/" base, rules⟩ (below "/" (base ++ place)) =
      isIgnored ⟨below "/" base', rules⟩ (below "/" (base' ++ place)) := by
  have hroot : isAbsolute "/" = true := by decide
  have habsolute (names : List String) : isAbsolute (below "/" names) = true :=
    Path.isAbsolute_below hroot names
  have hrest := Path.below?_below hbase hplace
  have hrest' := Path.below?_below hbase' hplace
  have hbegins := Path.beginsInside_of_below? (habsolute base) hrest
  unfold isIgnored
  simp only [habsolute, if_true, hrest, hrest', withoutBase_eq_self (habsolute base) hbegins,
    withoutBase_eq_self (habsolute base') hbegins,
    verdictFrom_base (below "/" base) (below "/" base')]

lemma IgnoreRules.isIgnored_none (base path : String) : (none base).isIgnored path = false := by
  have hsilent (rounds : Nat) (path : String) (isDirectory : Bool) :
      (none base).verdictFrom rounds path isDirectory = .silent := by
    induction rounds generalizing path isDirectory with
    | zero => rfl
    | succ rounds ih =>
      have hverdict : (none base).verdictOn path isDirectory = .silent := rfl
      rw [verdictFrom, hverdict]
      cases Path.parent? path with
      | none => rfl
      | some parent => exact ih parent true
  have hnot : (Verdict.silent == .ignored) = false := rfl
  unfold isIgnored
  simp only [hsilent, hnot, ite_self]
  generalize (if isAbsolute path then Path.below? (none base).base path else some path) = relative
  cases relative <;> rfl

/-! ### Resolution -/

/-- **A base directory and names behind it** that stand for themselves in globs. -/
structure IsFront (base names : List String) : Prop where
  isProperName : ∀ name ∈ base, IsProperName name
  isEscapable : AreEscapable base
  isPlainName : ∀ name ∈ names, IsPlainName name

namespace IsFront

variable {base names : List String}

lemma areEscapable (h : IsFront base names) : AreEscapable names :=
  areEscapable_of_isPlainName h.isPlainName

lemma areEscapable_append (h : IsFront base names) : AreEscapable (base ++ names) :=
  h.isEscapable.append h.areEscapable

end IsFront

section

variable {base base' names names' : List String} (hfront : IsFront base names)
  (hfront' : IsFront base' names') {disableDefaultIgnores : Bool}
  (hkeep : disableDefaultIgnores = false → KeepDependencies names names')
  {patterns patterns' : List String}
  (hpatterns : List.Forall₂ (IsRenamedPattern names names') patterns patterns')

include hfront hfront' hkeep hpatterns in
/-- The globs of all patterns that exclude files agree, also those for dependency directories. -/
lemma forall₂_globsAgree :
    List.Forall₂ (GlobsAgree (base ++ names) (base' ++ names'))
      (((allPatterns disableDefaultIgnores patterns).filterMap negated?).map
        (InputPattern.ofText (below "/" base)))
      (((allPatterns disableDefaultIgnores patterns').filterMap negated?).map
        (InputPattern.ofText (below "/" base'))) := by
  rw [filterMap_allPatterns, filterMap_allPatterns, filterMap_dependencyPatterns,
    List.forall₂_map_left_iff,
    List.forall₂_map_right_iff]
  refine List.rel_append ((forall₂_filterMap_negated? hpatterns).imp fun text text' h => ?_) ?_
  · exact (h.isMoved hfront.isPlainName hfront'.isPlainName hfront.isProperName
      hfront'.isProperName).globsAgree hfront.areEscapable_append hfront'.areEscapable_append
  · split
    · exact .nil
    · next henabled =>
      rw [List.forall₂_map_left_iff, List.forall₂_map_right_iff, List.forall₂_same]
      intro name hname
      exact globsAgree_dependency hfront.isProperName hfront'.isProperName hfront.isEscapable
        hfront'.isEscapable hfront.areEscapable.isName hfront'.areEscapable.isName
        (hkeep (by simpa using henabled)) hname

include hfront hfront' hkeep hpatterns in
/-- **Resolution below two fronts.** -/
lemma alike_resolveInputs {d d' : Disk} (hd : d.IsFileSystem) (hd' : d'.IsFileSystem)
    (hsame : SameBelow d (below "/" (base ++ names)) d' (below "/" (base' ++ names')))
    {ignore ignore' : IgnoreRules}
    (hignore : ∀ place, (∀ name ∈ place, IsName name) →
      ignore.isIgnored (below (below "/" (base ++ names)) place) =
        ignore'.isIgnored (below (below "/" (base' ++ names')) place)) :
    Alike (AreMoved (below "/" (base ++ names)) (below "/" (base' ++ names')))
      (resolveInputs d (below "/" base) disableDefaultIgnores patterns ignore)
      (resolveInputs d' (below "/" base') disableDefaultIgnores patterns' ignore') := by
  have hexclusions := ExclusionsAgree.ofPatterns
    (forall₂_globsAgree hfront hfront' hkeep hpatterns)
  have hnamed := forall₂_filter_named hpatterns
  unfold resolveInputs
  refine hexclusions.bind fun x x' hx => ?_
  rw [filter_allPatterns, filter_allPatterns]
  refine (Alike.mapM
    (S := AreMoved (below "/" (base ++ names)) (below "/" (base' ++ names'))) ?_).bind
      fun lists lists' hlists => .ok ?_
  · rw [List.forall₂_map_left_iff, List.forall₂_map_right_iff]
    refine hnamed.imp fun text text' h => ?_
    have hp := h.isMoved hfront.isPlainName hfront'.isPlainName hfront.isProperName
      hfront'.isProperName
    exact alike_expand hsame hp hd hd' hx
      (hp.globsAgree hfront.areEscapable_append hfront'.areEscapable_append)
  · refine
      AreMoved.firstSeen hfront.areEscapable_append.isName hfront'.areEscapable_append.isName ?_
    refine (AreMoved.flatten hlists).filter fun place hplace => ?_
    rw [hignore place hplace]

end

/-! ### Two places -/

/-- **A base directory that stands for itself in globs**: an absolute normalized path without
backslashes. -/
structure IsPlainBase (base : String) : Prop where
  isAbsolute : isAbsolute base = true
  isNormal : normalize base = base
  isEscapable : ∀ c ∈ base.toList, Glob.IsEscapable c

lemma IsPlainBase.exists_isFront {base : String} (h : IsPlainBase base) {names : List String}
    (hnames : ∀ name ∈ names, IsPlainName name) :
    ∃ front, base = below "/" front ∧ IsFront front names := by
  obtain ⟨front, hfront, -, hbase⟩ := Path.exists_normalSteps_eq h.isAbsolute
    (P := fun name => IsProperName name ∧ ∀ c ∈ name.toList, c ∈ base.toList) fun step hstep => by
      rcases Path.mem_innerSteps_isProperName hstep with rfl | ⟨name, rfl, hproper⟩
      · exact Or.inl rfl
      · rcases Path.mem_innerSteps hstep with hup | ⟨other, heq, -, hchars⟩
        · exact nomatch hup
        · obtain rfl := Path.Step.name.inj heq
          exact Or.inr ⟨name, rfl, hproper, hchars⟩
  refine ⟨front, h.isNormal.symm.trans hbase, ?_, ?_, hnames⟩
  · exact fun name hname => (hfront name hname).1
  · exact fun name hname => ⟨(hfront name hname).1.isName, fun c hc =>
      h.isEscapable c ((hfront name hname).2 c hc)⟩

/-- The pattern, without a `!` at its front, stays inside its base directory.  Its steps may go up
and down again. -/
def StaysInside (pattern : String) : Prop :=
  let text := (negated? pattern).getD pattern
  isAbsolute text = false ∧ StayInside (Path.innerSteps text.toList)

lemma StaysInside.isRenamedPattern {pattern : String} (h : StaysInside pattern) :
    IsRenamedPattern [] [] pattern pattern := by
  obtain ⟨hrelative, hinside⟩ := h
  have hrenamed : AreRenamed [] [] ((negated? pattern).getD pattern)
      ((negated? pattern).getD pattern) :=
    ⟨_, hinside, ⟨hrelative, rfl⟩, ⟨hrelative, rfl⟩⟩
  cases hnegated : negated? pattern with
  | none =>
    rw [hnegated] at hrenamed
    exact .named hnegated hnegated hrenamed
  | some text =>
    rw [hnegated] at hrenamed
    exact .excluded hnegated hnegated hrenamed

/-- **The names of directories stand for themselves.**  With the same tree below two base
directories, patterns that stay inside name the same files below them.  And with the same tree below
the names at the front of patterns and below others, the patterns with these names exchanged name
the same files below them, where the ignore rules say the same about these files.  If dependency
directories are excluded, a name of theirs is not exchanged for another, nor another for it. -/
theorem resolveInputs_relocated {d d' : Disk} (hd : d.IsFileSystem) (hd' : d'.IsFileSystem)
    {base : String} (hbase : IsPlainBase base) (disableDefaultIgnores : Bool)
    (patterns : List String) :
    (∀ base', IsPlainBase base' → SameBelow d base d' base' →
      (∀ pattern ∈ patterns, StaysInside pattern) → ∀ rules : List IgnoreRule,
        Alike (AreMoved base base')
          (resolveInputs d base disableDefaultIgnores patterns ⟨base, rules⟩)
          (resolveInputs d' base' disableDefaultIgnores patterns ⟨base', rules⟩)) ∧
    ∀ names names' patterns', (∀ name ∈ names, IsPlainName name) →
      (∀ name ∈ names', IsPlainName name) →
      SameBelow d (below base names) d' (below base names') →
      List.Forall₂ (IsRenamedPattern names names') patterns patterns' →
      (disableDefaultIgnores = false → KeepDependencies names names') →
      ∀ ignore ignore' : IgnoreRules,
        (∀ place, (∀ name ∈ place, IsName name) →
          ignore.isIgnored (below (below base names) place) =
            ignore'.isIgnored (below (below base names') place)) →
        Alike (AreMoved (below base names) (below base names'))
          (resolveInputs d base disableDefaultIgnores patterns ignore)
          (resolveInputs d' base disableDefaultIgnores patterns' ignore') := by
  constructor
  · intro base' hbase' hsame hinside rules
    -- Moving the base directory is renaming no names behind two base directories.
    obtain ⟨front, rfl, hfront⟩ := hbase.exists_isFront (List.forall_mem_nil IsPlainName)
    obtain ⟨front', rfl, hfront'⟩ := hbase'.exists_isFront (List.forall_mem_nil IsPlainName)
    have hpatterns : List.Forall₂ (IsRenamedPattern [] []) patterns patterns :=
      List.forall₂_same.mpr fun pattern hpattern => (hinside pattern hpattern).isRenamedPattern
    have hkeep : disableDefaultIgnores = false → KeepDependencies [] [] :=
      fun _ => KeepDependencies.refl []
    have hignore : ∀ place, (∀ name ∈ place, IsName name) →
        IgnoreRules.isIgnored ⟨below "/" front, rules⟩ (below (below "/" (front ++ [])) place) =
          IgnoreRules.isIgnored ⟨below "/" front', rules⟩
            (below (below "/" (front' ++ [])) place) := by
      intro place hplace
      rw [List.append_nil, List.append_nil, ← Path.below_append, ← Path.below_append]
      exact IgnoreRules.isIgnored_below hfront.isProperName hfront'.isProperName rules hplace
    rw [← List.append_nil front, ← List.append_nil front'] at hsame
    have halike := alike_resolveInputs hfront hfront' hkeep hpatterns hd hd' hsame hignore
    rwa [List.append_nil, List.append_nil] at halike
  · intro names names' patterns' hnames hnames' hsame hpatterns hkeep ignore ignore' hignore
    -- here the base directory is the same, and the names behind it are exchanged
    obtain ⟨front, rfl, hfront⟩ := hbase.exists_isFront hnames
    have hfront' : IsFront front names' := ⟨hfront.isProperName, hfront.isEscapable, hnames'⟩
    rw [← Path.below_append, ← Path.below_append] at hsame hignore ⊢
    exact alike_resolveInputs hfront hfront' hkeep hpatterns hd hd' hsame hignore

/-! ### One stylesheet in one directory -/

/-- A directory with one stylesheet. -/
def oneStylesheet : Disk.Node := .dir [("s.css", .file .empty)]

/-- A file system with that directory under a name. -/
def oneProject (name : String) : Disk := ⟨.dir [(name, oneStylesheet)], []⟩

lemma isFileSystem_oneProject {name : String} (hname : IsName name) :
    (oneProject name).IsFileSystem := by
  have hfile : IsName "s.css" := by
    unfold IsName
    decide
  refine ⟨rfl, Disk.Node.isTree_dir (List.pairwise_singleton _ _) ?_⟩
  intro entry hentry
  obtain rfl := List.mem_singleton.mp hentry
  refine ⟨hname, Disk.Node.isTree_dir (List.pairwise_singleton _ _) ?_⟩
  intro entry hentry
  obtain rfl := List.mem_singleton.mp hentry
  exact ⟨hfile, Disk.Node.isTree_file .empty⟩

lemma at?_oneStylesheet {names : List String} {node : Disk.Node}
    (h : oneStylesheet.at? names = some node) :
    names = [] ∧ node = oneStylesheet ∨ names = ["s.css"] ∧ node = .file .empty := by
  cases names with
  | nil => exact Or.inl ⟨rfl, (Option.some.inj h).symm⟩
  | cons name rest =>
    rw [Disk.Node.at?, Option.bind_eq_some_iff] at h
    obtain ⟨child, hchild, h⟩ := h
    have hfind : (if "s.css" = name then some (.file .empty) else none) = some child := hchild
    split at hfind
    · next heq =>
      cases hfind
      cases rest with
      | nil => exact Or.inr ⟨by rw [heq], (Option.some.inj h).symm⟩
      | cons other rest => cases h
    · cases hfind

lemma holds_oneProject {name : String} (hname : IsProperName name)
    (hdir : Disk.IsWithinLimits [name]) (hfile : Disk.IsWithinLimits [name, "s.css"]) :
    (oneProject name).Holds [name] oneStylesheet where
  at? := by
    simp [oneProject, Disk.Node.at?, Disk.Node.child?, Disk.Node.entries, Keyed.find?]
  isProperName := by simpa using hname
  isWithinLimits names node h := by
    rcases at?_oneStylesheet h with ⟨rfl, -⟩ | ⟨rfl, -⟩
    · exact hdir
    · exact hfile

lemma sameBelow_oneProject {name name' dir dir' : String} (hdir : below "/" [name] = dir)
    (hdir' : below "/" [name'] = dir') (h : (oneProject name).Holds [name] oneStylesheet)
    (h' : (oneProject name').Holds [name'] oneStylesheet) :
    SameBelow (oneProject name) dir (oneProject name') dir' := by
  rw [← hdir, ← hdir']
  refine Disk.sameBelow_of_holds h h' fun names target hlink => ?_
  rcases at?_oneStylesheet hlink with ⟨-, heq⟩ | ⟨-, heq⟩
  · exact nomatch heq
  · exact nomatch heq

lemma isProperName_of {name : String}
    (h : name ≠ "" ∧ '/' ∉ name.toList ∧ name ≠ "." ∧ name ≠ "..") : IsProperName name :=
  ⟨⟨h.1, h.2.1⟩, h.2.2.1, h.2.2.2⟩

lemma holds_oneProject_b : (oneProject "b").Holds ["b"] oneStylesheet :=
  holds_oneProject (isProperName_of (by decide)) ⟨by decide, by decide, by decide⟩
    ⟨by decide, by decide, by decide⟩

lemma resolveInputs_oneProject_b :
    resolveInputs (oneProject "b") "/b" false ["*.css"] (.none "/b") = .ok ["/b/s.css"] ∧
      resolveInputs (oneProject "b") "/" false ["b/*.css"] (.none "/") = .ok ["/b/s.css"] := by
  constructor
  · apply eq_ok_of_toOption
    decide +kernel
  · apply eq_ok_of_toOption
    decide +kernel

lemma staysInside_stylesheets : StaysInside "*.css" := ⟨by decide, [], by decide⟩

/-- Names in brackets and in braces stand for themselves, as base directories, and so do names at
the front of a pattern. -/
theorem resolveInputs_relocated_brackets :
    (Alike (AreMoved "/[a]" "/\x7bb\x7d")
      (resolveInputs (oneProject "[a]") "/[a]" false ["*.css"] (.none "/[a]"))
      (resolveInputs (oneProject "\x7bb\x7d") "/\x7bb\x7d" false ["*.css"] (.none "/\x7bb\x7d")) ∧
    resolveInputs (oneProject "[a]") "/[a]" false ["*.css"] (.none "/[a]") = .ok ["/[a]/s.css"]) ∧
    Alike (AreMoved "/a" "/b")
      (resolveInputs (oneProject "a") "/" false ["a/*.css"] (.none "/"))
      (resolveInputs (oneProject "b") "/" false ["b/*.css"] (.none "/")) := by
  have hbracketed : IsProperName "[a]" := isProperName_of (by decide)
  have hbraced : IsProperName "\x7bb\x7d" := isProperName_of (by decide)
  have ha : IsProperName "a" := isProperName_of (by decide)
  have hb : IsProperName "b" := isProperName_of (by decide)
  have hplain (base : String) (habsolute : isAbsolute base = true) (hnormal : normalize base = base)
      (hchars : '\\' ∉ base.toList) : IsPlainBase base :=
    ⟨habsolute, hnormal, fun c hc heq => hchars (heq ▸ hc)⟩
  have hdirA : below "/" ["a"] = "/a" := by decide
  have hdirB : below "/" ["b"] = "/b" := by decide
  have hholdsBracketed : (oneProject "[a]").Holds ["[a]"] oneStylesheet :=
    holds_oneProject hbracketed ⟨by decide, by decide, by decide⟩ ⟨by decide, by decide, by decide⟩
  have hholdsBraced : (oneProject "\x7bb\x7d").Holds ["\x7bb\x7d"] oneStylesheet :=
    holds_oneProject hbraced ⟨by decide, by decide, by decide⟩ ⟨by decide, by decide, by decide⟩
  have hholdsA : (oneProject "a").Holds ["a"] oneStylesheet :=
    holds_oneProject ha ⟨by decide, by decide, by decide⟩ ⟨by decide, by decide, by decide⟩
  have hrenamed : IsRenamedPattern ["a"] ["b"] "a/*.css" "b/*.css" :=
    .named (by decide) (by decide) ⟨[.name "*.css"], ⟨[], by decide⟩, ⟨by decide, by decide⟩,
      ⟨by decide, by decide⟩⟩
  refine ⟨⟨?_, eq_ok_of_toOption (by decide +kernel)⟩, ?_⟩
  · exact (resolveInputs_relocated (isFileSystem_oneProject hbracketed.isName)
      (isFileSystem_oneProject hbraced.isName) (hplain "/[a]" (by decide) (by decide) (by decide))
      false ["*.css"]).1 "/\x7bb\x7d" (hplain _ (by decide) (by decide) (by decide))
      (sameBelow_oneProject (by decide) (by decide) hholdsBracketed hholdsBraced)
      (by simpa using staysInside_stylesheets) []
  · have hmoved := (resolveInputs_relocated (isFileSystem_oneProject ha.isName)
      (isFileSystem_oneProject hb.isName) (hplain "/" (by decide) (by decide) (by decide)) false
      ["a/*.css"]).2 ["a"] ["b"] ["b/*.css"] (by simpa using ⟨ha, by decide, by decide⟩)
      (by simpa using ⟨hb, by decide, by decide⟩)
      (sameBelow_oneProject rfl rfl hholdsA holds_oneProject_b)
      (.cons hrenamed .nil) (fun _ => .cons (by decide) .nil) (.none "/") (.none "/")
      fun place _ => by rw [IgnoreRules.isIgnored_none, IgnoreRules.isIgnored_none]
    rwa [hdirA, hdirB] at hmoved

/-- **A name with a backslash does not stand for itself.**  The same tree is below both base
directories, and yet a pattern names its file below the one of them only.  The same goes for the two
names at the front of a pattern. -/
theorem resolveInputs_backslash :
    normalize "/x\\y" = "/x\\y" ∧ InputPattern.hasGlobCharacters "x\\y" = false ∧
      SameBelow (oneProject "x\\y") "/x\\y" (oneProject "b") "/b" ∧
      StaysInside "*.css" ∧
      resolveInputs (oneProject "x\\y") "/x\\y" false ["*.css"] (.none "/x\\y") = .ok [] ∧
      resolveInputs (oneProject "b") "/b" false ["*.css"] (.none "/b") = .ok ["/b/s.css"] ∧
      resolveInputs (oneProject "x\\y") "/" false ["x\\y/*.css"] (.none "/") = .ok [] ∧
      resolveInputs (oneProject "b") "/" false ["b/*.css"] (.none "/") = .ok ["/b/s.css"] ∧
      ¬ AreMoved "/x\\y" "/b" [] ["/b/s.css"] := by
  have hholds : (oneProject "x\\y").Holds ["x\\y"] oneStylesheet :=
    holds_oneProject (isProperName_of (by decide)) ⟨by decide, by decide, by decide⟩
      ⟨by decide, by decide, by decide⟩
  have hsame : SameBelow (oneProject "x\\y") "/x\\y" (oneProject "b") "/b" :=
    sameBelow_oneProject (by decide) (by decide) hholds holds_oneProject_b
  refine ⟨by decide, by decide, hsame, staysInside_stylesheets, ?_, resolveInputs_oneProject_b.1,
    ?_, resolveInputs_oneProject_b.2, ?_⟩
  · apply eq_ok_of_toOption
    decide +kernel
  · apply eq_ok_of_toOption
    decide +kernel
  · rintro ⟨places, -, hnone, hfound⟩
    rw [List.map_eq_nil_iff.mp hnone.symm] at hfound
    exact nomatch hfound

end SheetLint
