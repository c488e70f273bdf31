import SheetLint.Proofs.Glob.Steps
import SheetLint.Proofs.Inputs.Resolution
import SheetLint.Proofs.Inputs.Roots

/-!
# Dotted names and the steps that take them

Whether a walk passes over dotted names is decided once for a pattern: it does not if some step of
the glob begins with a dot.  So without such a step no dotted name is reached below the root.  With
one, a dotted name may also be taken by another step, though only by one that begins with a
wildcard, a class, a choice or a backslash: a `**`, or the `*.css` in `.*/*.css`
(`resolveInputs_dotted_by_wildcards`).

The glob of a pattern is one text for the whole path, and a match is not bound to go by its steps: a
negated class matches a slash too (`resolveInputs_not_aligned`).  If each step is a glob by itself
that matches no slash, the steps take the names one by one: `aligned_of_matchesPath`.  That holds
below every root.  One with a backslash is not escaped, but then nothing below it is matched.
-/

namespace SheetLint

open Disk (Node)
open SheetLint.Path (below IsName)

/-- The name, or step, begins with a dot. -/
def IsDotted (name : String) : Prop := name.toList.head? = some '.'

/-! ### Walks that pass over dotted names -/

lemma not_isDotted_of_admitted {x : Exclusions} {path : String} {node : Node}
    {place : List String} (h : Admitted (walkAdmits x false) path node place) :
    ∀ name ∈ place, ¬ IsDotted name := by
  induction place generalizing path node with
  | nil => exact fun _ hname => nomatch hname
  | cons name rest ih =>
    obtain ⟨child, -, hadmits, hrest⟩ := h
    refine List.forall_mem_cons.mpr ⟨fun hdotted => ?_, ih hrest⟩
    have hdotted : name.toList.head? = some '.' := hdotted
    simp [walkAdmits, hdotted] at hadmits

/-! ### The steps of a pattern -/

lemma Path.Step.isName_text_of_mem_innerSteps {text : List Char} {step : Path.Step}
    (h : step ∈ Path.innerSteps text) : IsName step.text :=
  Path.Step.IsInner.isName_text (Or.inr (Path.mem_innerSteps_isProperName h))

namespace InputPattern

lemma namesHidden_iff (p : InputPattern) :
    p.namesHidden = true ↔ ∃ step ∈ p.rest, IsDotted step := by
  simp [namesHidden, IsDotted]

lemma isName_of_mem_rest {base text step : String} (h : step ∈ (ofText base text).rest) :
    IsName step := by
  obtain ⟨step, hstep, rfl⟩ := List.mem_map.mp h
  by_cases habsolute : Path.isAbsolute text = true
  · -- the root is a plain step
    have hsteps : Path.steps text = .root :: Path.innerSteps text.toList := by
      simp [Path.steps, habsolute]
    have hplain : hasGlobCharacters Path.Step.root.text = false := by decide
    rw [hsteps, List.dropWhile_cons_of_pos (by simp [hplain])] at hstep
    exact Path.Step.isName_text_of_mem_innerSteps ((List.dropWhile_suffix _).subset hstep)
  · exact (Path.isInner_of_mem_steps (by simpa using habsolute)
      ((List.dropWhile_suffix _).subset hstep)).isName_text

lemma spelled_eq_intercalate (step : String) (steps : List String) :
    Path.spelled (step :: steps) = '/' :: ("/".intercalate (step :: steps)).toList := by
  rw [String.toList_intercalate]
  induction steps generalizing step with
  | nil => simp [Path.spelled, List.intercalate]
  | cons next steps ih =>
    rw [List.map_cons, List.map_cons, List.intercalate_cons_cons, ← List.map_cons, Path.spelled,
      List.flatMap_cons, ← Path.spelled, ih next]
    simp

lemma behindRoot_eq_spelled {p : InputPattern} (hp : p.isLiteral = false) :
    p.behindRoot = Path.spelled p.rest := by
  unfold behindRoot
  rw [if_neg (by simp [hp])]
  cases hrest : p.rest with
  | nil =>
    unfold isLiteral at hp
    rw [hrest] at hp
    exact nomatch hp
  | cons step steps => exact (spelled_eq_intercalate step steps).symm

/-! ### What a pattern reaches -/

/-- **How a step of a pattern takes a name.**  The glob that the step is by itself matches the name.
A dotted name is taken by a dotted step or, where the pattern has a dotted step, by another one at
whose beginning a glob may go on with a dot. -/
structure Takes (p : InputPattern) (step name : String) : Prop where
  isMatched : Glob.StepMatches step name
  ofDotted : IsDotted name → IsDotted step ∨
    (∃ other ∈ p.rest, IsDotted other) ∧ ∃ c ∈ Glob.openers, step.toList.head? = some c

/-- Names below the root of a pattern as they can lead to a file that it names. -/
structure Reaches (p : InputPattern) (place : List String) : Prop where
  isName : ∀ name ∈ place, IsName name
  notDotted : (∀ step ∈ p.rest, ¬ IsDotted step) → ∀ name ∈ place, ¬ IsDotted name
  aligned : (∀ step ∈ p.rest, Glob.IsComponent step) → Glob.Aligned p.Takes p.rest place

section

variable {p : InputPattern} {names : List String} (hp : p.isLiteral = false)
  (hnames : ∀ name ∈ names, IsName name) (hroot : p.root = below "/" names)
  (hrest : ∀ step ∈ p.rest, IsName step)

include hp hnames hroot hrest

omit hrest in
/-- Below a root with a backslash nothing is matched. -/
lemma areEscapable_of_matchesPath {glob : Glob} (hglob : p.HasGlob glob) {place : List String}
    (hplace : ∀ name ∈ place, IsName name) (hne : place ≠ [])
    (h : glob.matchesPath (below p.root place) = true) : AreEscapable names := by
  intro name hname
  refine ⟨hnames name hname, fun c hc hbackslash => ?_⟩
  subst hbackslash
  have hfront : '\\' ∈ Path.spelled names :=
    List.mem_flatMap.mpr ⟨name, hname, List.mem_cons_of_mem _ hc⟩
  have hbehind : p.behindRoot = '/' :: ("/".intercalate p.rest).toList := by
    unfold behindRoot
    rw [if_neg (by simp [hp])]
  rw [HasGlob, globText_eq_globBehind hnames hroot, globBehind, hbehind] at hglob
  have hbytes : Glob.bytes (below p.root place) =
      (Path.spelled names).flatMap String.utf8EncodeChar ++ Glob.spelledBytes place := by
    rw [hroot, ← Path.below_append, Glob.bytes_below (List.forall_mem_append.mpr ⟨hnames, hplace⟩)
      (by simp [hne]), Glob.spelledBytes_append, Glob.flatMap_spelled]
  exact absurd h (Bool.eq_false_iff.mp (Glob.not_matchesPath_of_backslash hfront hglob hbytes))

/-- **Matching component by component.** -/
lemma aligned_of_matchesPath (hsteps : ∀ step ∈ p.rest, Glob.IsComponent step) {glob : Glob}
    (hglob : p.HasGlob glob) {place : List String} (hplace : ∀ name ∈ place, IsName name)
    (hne : place ≠ []) (h : glob.matchesPath (below p.root place) = true) :
    Glob.Aligned Glob.StepMatches p.rest place := by
  have hfront := areEscapable_of_matchesPath hp hnames hroot hglob hplace hne h
  have hread := alike_readPatternGlob hfront (isBehind_behindRoot p)
  rw [← globText_eq_globBehind hnames hroot, (readPatternGlob_eq_ok_iff _ _).mpr hglob,
    behindRoot_eq_spelled hp] at hread
  cases htokens : Glob.readTokens false (Path.spelled p.rest) with
  | error defect =>
    rw [htokens] at hread
    exact nomatch hread
  | ok tokens =>
    rw [htokens] at hread
    obtain ⟨glob', heq, hfits⟩ := hread.exists_of_ok
    obtain rfl := Except.ok.inj heq
    rw [hroot, ← Path.below_append] at h
    have hdescribe := (hfits place hplace (by simp [hne])).mp h
    have hcomponents : ∀ step ∈ p.rest, IsName step ∧ Glob.IsComponent step :=
      fun step hstep => ⟨hrest step hstep, hsteps step hstep⟩
    exact Glob.matchesByComponents hcomponents place tokens hplace htokens hdescribe

/-- **What an expanded pattern reaches.** -/
lemma reaches_of_mem_expand {d : Disk} (hd : d.IsFileSystem) (hrooted : p.IsRooted)
    {x : Exclusions} {paths : List String} (h : p.expand d x = .ok paths) :
    ∀ path ∈ paths, ∃ place, path = below p.root place ∧ p.Reaches place := by
  intro path hpath
  unfold expand at h
  rw [if_neg (by simp [hp])] at h
  obtain ⟨glob, hread, h⟩ := exists_of_bind_eq_ok h
  cases h
  have hglob : p.HasGlob glob := (readPatternGlob_eq_ok_iff _ _).mp hread
  obtain ⟨hwalk, hkept⟩ := List.mem_filter.mp hpath
  rw [walk_eq_map_places] at hwalk
  obtain ⟨place, hplace, rfl⟩ := List.mem_map.mp hwalk
  have htree := isTree_walkStart hd.isTree p.root
  obtain ⟨⟨content, hfile⟩, hadmitted⟩ := (mem_places_iff _ htree _ place).mp hplace
  have hmatches : glob.matchesPath (below p.root place) = true := (Bool.and_eq_true_iff.mp hkept).1
  have hplace := htree.isName hfile
  have hnotDotted : (∀ step ∈ p.rest, ¬ IsDotted step) → ∀ name ∈ place, ¬ IsDotted name := by
    intro hsteps
    have hhidden : p.namesHidden = false := by
      rw [← Bool.not_eq_true, namesHidden_iff]
      exact fun ⟨step, hstep, hdotted⟩ => hsteps step hstep hdotted
    rw [hhidden] at hadmitted
    exact not_isDotted_of_admitted hadmitted
  refine ⟨place, rfl, hplace, hnotDotted, fun hcomponents => ?_⟩
  have hne : place ≠ [] := by
    rintro rfl
    have hself := not_matches_of_walkStart hd hp hrooted hglob (Option.some.inj hfile)
    exact Bool.false_ne_true (hself.symm.trans hmatches)
  have haligned :=
    aligned_of_matchesPath hp hnames hroot hrest hcomponents hglob hplace hne hmatches
  refine haligned.imp fun step hstep name hname hmatch => ⟨hmatch, fun hdotted => ?_⟩
  -- A dotted name is reached, so some step of the pattern is dotted; it need not be this one.
  have hother : ∃ other ∈ p.rest, IsDotted other := by
    by_contra hnone
    push Not at hnone
    exact hnotDotted hnone name hname hdotted
  exact (hmatch.begins (hrest step hstep) hdotted).imp_right fun hopens => ⟨hother, hopens⟩

end

end InputPattern

/-! ### Resolution -/

/-- **Dotted names are reached only by patterns with a dotted step.**  When resolution succeeds, its
answer lists what the patterns that are not negated are expanded to, without what is ignored and
what has been listed before.  Each file of a pattern that is not literal stands below its root, by
names none of which is dotted unless a step of the pattern is.  Where the steps are globs by
themselves, the names are taken step by step, and dotted names only as `InputPattern.Takes`
says. -/
theorem resolveInputs_reaches {d : Disk} (hd : d.IsFileSystem) {base : String}
    (hbase : Path.isAbsolute base = true) {disableDefaultIgnores : Bool} {patterns : List String}
    {ignore : IgnoreRules} {files : List String}
    (h : resolveInputs d base disableDefaultIgnores patterns ignore = .ok files) :
    ∃ x lists,
      Exclusions.ofPatterns (((allPatterns disableDefaultIgnores patterns).filterMap negated?).map
        (InputPattern.ofText base)) = .ok x ∧
      List.Forall₂
        (fun text list =>
          (InputPattern.ofText base text).expand d x = .ok list ∧
          ((InputPattern.ofText base text).isLiteral = false → ∀ path ∈ list, ∃ place,
            path = below (InputPattern.ofText base text).root place ∧
              (InputPattern.ofText base text).Reaches place))
        (patterns.filter fun text => (negated? text).isNone) lists ∧
      files = (lists.flatten.filter fun path => !ignore.isIgnored path).eraseDups := by
  unfold resolveInputs at h
  obtain ⟨x, hexclusions, h⟩ := exists_of_bind_eq_ok h
  obtain ⟨lists, hlists, h⟩ := exists_of_bind_eq_ok h
  cases h
  rw [filter_allPatterns] at hlists
  refine ⟨x, lists, hexclusions, ?_, firstSeen_eq_eraseDups _⟩
  refine (List.forall₂_map_left_iff.mp (forall₂_of_mapM hlists)).imp fun text list hexpand => ?_
  refine ⟨hexpand, fun hp => ?_⟩
  obtain ⟨names, hnames, hroot⟩ := InputPattern.exists_root_ofText hbase text
  exact InputPattern.reaches_of_mem_expand hp hnames hroot
    (fun step hstep => InputPattern.isName_of_mem_rest hstep) hd
    (InputPattern.isRooted_ofText hbase text) hexpand

/-- A file system with a dotted stylesheet in a dotted directory. -/
def dottedStylesheet : Disk := ⟨.dir [(".cache", .dir [(".a.css", .file .empty)])], []⟩

lemma isFileSystem_dottedStylesheet : dottedStylesheet.IsFileSystem := by
  have hname : IsName ".cache" ∧ IsName ".a.css" := by
    unfold IsName
    decide
  have hinner : (Node.dir [(".a.css", .file .empty)]).IsTree := by
    apply Node.isTree_dir
    · unfold Keyed.Sorted
      decide
    · simpa using ⟨hname.2, Node.isTree_file .empty⟩
  refine ⟨rfl, ?_⟩
  apply Node.isTree_dir
  · unfold Keyed.Sorted
    decide
  · simpa using ⟨hname.1, hinner⟩

lemma ofText_dottedStylesheet : InputPattern.ofText "/" ".*/*.css" = ⟨"/", [".*", "*.css"]⟩ := by
  decide +kernel

lemma eq_of_below_dottedStylesheet {place : List String} (hplace : ∀ name ∈ place, IsName name)
    (h : "/.cache/.a.css" = below "/" place) : place = [".cache", ".a.css"] := by
  have hnames : ∀ name ∈ [".cache", ".a.css"], IsName name := by
    unfold IsName
    decide
  have hpath : "/.cache/.a.css" = below "/" [".cache", ".a.css"] := by decide
  exact Path.below_injective hplace hnames (h.symm.trans hpath)

/-- The pattern `.*/*.css` reaches the stylesheet, and its steps take the names one by one. -/
theorem resolveInputs_reaches_dottedStylesheet :
    resolveInputs dottedStylesheet "/" true [".*/*.css"] (.none "/") = .ok ["/.cache/.a.css"] ∧
      Glob.Aligned (InputPattern.ofText "/" ".*/*.css").Takes [".*", "*.css"]
        [".cache", ".a.css"] := by
  have hfiles : resolveInputs dottedStylesheet "/" true [".*/*.css"] (.none "/") =
      .ok ["/.cache/.a.css"] := by
    apply eq_ok_of_toOption
    decide +kernel
  refine ⟨hfiles, ?_⟩
  obtain ⟨x, lists, -, hlists, hlisted⟩ :=
    resolveInputs_reaches isFileSystem_dottedStylesheet (by decide) hfiles
  have hpatterns : ([".*/*.css"].filter fun text => (negated? text).isNone) = [".*/*.css"] := by
    decide
  rw [hpatterns] at hlists
  obtain ⟨list, _, ⟨-, hreaches⟩, hnil, rfl⟩ := List.forall₂_cons_left_iff.mp hlists
  obtain rfl := List.forall₂_nil_left_iff.mp hnil
  have hmem : "/.cache/.a.css" ∈ list := by
    have hmem := List.mem_singleton_self "/.cache/.a.css"
    rw [hlisted] at hmem
    simpa using (List.mem_filter.mp (List.mem_eraseDups.mp hmem)).1
  rw [ofText_dottedStylesheet] at hreaches ⊢
  obtain ⟨place, hpath, hreach⟩ := hreaches rfl _ hmem
  obtain rfl := eq_of_below_dottedStylesheet hreach.isName hpath
  refine hreach.aligned fun step hstep => ?_
  have hsimple : IsName step ∧ ∀ c ∈ step.toList, Glob.IsSimple c := by
    rcases List.mem_pair.mp hstep with rfl | rfl <;> simp [IsName, Glob.IsSimple]
  exact Glob.isComponent_of_simple hsimple.1 hsimple.2

/-- A file system with a file in a directory. -/
def nestedFile : Disk := ⟨.dir [("a", .dir [("c", .file .empty)])], []⟩

/-- **Names are not always taken step by step**: a class can match a slash. -/
theorem resolveInputs_not_aligned (takes : String → String → Prop) :
    resolveInputs nestedFile "/" true ["a[!b]c"] (.none "/") = .ok ["/a/c"] ∧
      ¬ Glob.Aligned takes (InputPattern.ofText "/" "a[!b]c").rest ["a", "c"] := by
  have hsteps : (InputPattern.ofText "/" "a[!b]c").rest = ["a[!b]c"] := by decide +kernel
  refine ⟨?_, fun haligned => ?_⟩
  · apply eq_ok_of_toOption
    decide +kernel
  · rw [hsteps] at haligned
    obtain ⟨_, rest, hnames, -, hrest⟩ := haligned.exists_of_ne_stars (by decide)
    rw [hrest.eq_nil] at hnames
    exact nomatch hnames

/-- **A step of wildcards takes a dotted name** where another step is dotted: there is no way in
which only dotted steps take the dotted names of the path that is returned. -/
theorem resolveInputs_dotted_by_wildcards :
    resolveInputs dottedStylesheet "/" true [".*/*.css"] (.none "/") = .ok ["/.cache/.a.css"] ∧
      ¬ ∃ place, "/.cache/.a.css" = below (InputPattern.ofText "/" ".*/*.css").root place ∧
        (∀ name ∈ place, IsName name) ∧
        Glob.Aligned (fun step name => Glob.StepMatches step name ∧ (IsDotted name → IsDotted step))
          (InputPattern.ofText "/" ".*/*.css").rest place := by
  constructor
  · apply eq_ok_of_toOption
    decide +kernel
  · rintro ⟨place, hpath, hplace, haligned⟩
    rw [ofText_dottedStylesheet] at hpath haligned
    obtain rfl := eq_of_below_dottedStylesheet hplace hpath
    obtain ⟨_, _, hnames, -, haligned⟩ := haligned.exists_of_ne_stars (by decide)
    obtain ⟨rfl, rfl⟩ := List.cons.inj hnames
    obtain ⟨_, _, hnames, ⟨-, hdotted⟩, -⟩ := haligned.exists_of_ne_stars (by decide)
    obtain ⟨rfl, -⟩ := List.cons.inj hnames
    have hwildcards : IsDotted "*.css" := hdotted (by unfold IsDotted; decide)
    exact absurd hwildcards (by unfold IsDotted; decide)

end SheetLint
