import SheetLint.Proofs.Disk.Onward
import SheetLint.Proofs.Inputs.Dependencies
import SheetLint.Proofs.Inputs.DottedNames
import SheetLint.Proofs.Inputs.Renaming

/-!
# A file named literally, and by a class

A pattern without characters of globs names a file by its path.  With a class that holds one
character in place of this character it is expanded by a walk, and the walk finds the same name in
the same directory (`isFound_classed_iff`).  Both are followed by the same exclusions and the same
ignore rules (`resolveInputs_twoWays`).

What counts as a file is tested in two ways: the walk takes regular files, the literal pattern takes
whatever is no directory.  So the two patterns name the same files as long as no link stands under
the name (`resolveInputs_class`), and a link is named by the literal pattern alone
(`resolveInputs_class_links`), even if it leads nowhere or to a directory.

The literal pattern asks for the whole path and the walk for the entry of a directory.  That both
come to the same node is `Disk.entry_below_concat`, and supposes that the path is within the limits
of the system.
-/

namespace SheetLint

open Disk (Node)
open Glob (TokensDescribe spelledBytes escape escapedToken)
open SheetLint.Path (below spelled IsName IsProperName)

/-! ### A class of one character -/

namespace Glob

open String (utf8EncodeChar)

/-- **A character that a class can hold alone.**  Of a character beyond ASCII a class holds the
single bytes, and behind the bracket `!` and `^` negate the class. -/
structure IsClassable (c : Char) : Prop where
  isAscii : c.val.toNat < 128
  ne_bang : c ≠ '!'
  ne_caret : c ≠ '^'

lemma readClass_single {c : Char} (hc : IsClassable c) (rest : List Char) :
    readClass (c :: ']' :: rest) = .ok (some (⟨false, [(c, c)]⟩, rest)) := by
  have hfront : classFront (c :: ']' :: rest) = (false, c :: ']' :: rest) := by
    unfold classFront
    split
    · next heq => exact absurd (List.cons.inj heq).1 hc.ne_bang
    · next heq => exact absurd (List.cons.inj heq).1 hc.ne_caret
    · rfl
  rw [readClass_eq_ok_iff, hfront]
  exact ⟨rfl, by simp [classFrom, ClassState.add, ClassState.finish]⟩

lemma describes_class {c : Char} (hc : c.val.toNat < 128) (text : List UInt8) :
    (Token.oneOf ⟨false, [(c, c)]⟩).expr.Describes text ↔ text = utf8EncodeChar c := by
  have hbytes : utf8EncodeChar c = [UInt8.ofNat c.val.toNat] := by
    unfold utf8EncodeChar
    rw [if_pos (Nat.le_of_lt_succ hc)]
  have hclass : (⟨false, [(c, c)]⟩ : CharClass).byteClass =
      ⟨false, [(UInt8.ofNat c.val.toNat, UInt8.ofNat c.val.toNat)]⟩ := by
    simp [CharClass.byteClass, byteRanges, hbytes]
  rw [Token.expr, hclass, hbytes]
  exact Expr.describes_exactly _ text

/-- The character stands for itself in a glob, escaped or not. -/
def IsPlainChar (c : Char) : Prop := isEscaped c = false ∧ IsEscapable c

/-- **A name with a class for one of its characters** describes the name and nothing else. -/
lemma exists_readTokens_class {before after : List Char} {c : Char}
    (hbefore : ∀ d ∈ before, IsPlainChar d) (hafter : ∀ d ∈ after, IsPlainChar d)
    (hc : IsClassable c) :
    ∃ tokens, readTokens false (before ++ '[' :: c :: ']' :: after) = .ok tokens ∧
      ∀ text, TokensDescribe tokens text ↔
        text = (before ++ c :: after).flatMap utf8EncodeChar := by
  obtain ⟨s, hread, hs, htokens⟩ := tokensFrom_escape isPlain_start (fun d hd => (hbefore d hd).2)
    (after.length + 4) ('[' :: c :: ']' :: after)
  have hstep : Step s ('[' :: c :: ']' :: after) (s.push ']' (.oneOf ⟨false, [(c, c)]⟩)) after :=
    .oneOf _ hs.2 (readClass_single hc after)
  obtain ⟨final, hread', hfinal, htokens'⟩ := tokensFrom_escape
    (s := s.push ']' (.oneOf ⟨false, [(c, c)]⟩)) hs (fun d hd => (hafter d hd).2) 3 []
  rw [escape_eq_self fun d hd => (hbefore d hd).1, tokensFrom_of_step hstep] at hread
  rw [escape_eq_self fun d hd => (hafter d hd).1, List.append_nil, tokensFrom_nil] at hread'
  refine ⟨final.tokens.reverse, ?_, fun text => ?_⟩
  -- the rounds of the reader, cut at the class
  · have hrounds : (before ++ '[' :: c :: ']' :: after).length + 1 =
        before.length + (after.length + 4) := by
      simp only [List.length_append, List.length_cons]
      omega
    rw [readTokens, hrounds, hread, hread']
    simp only [bind, Except.bind, hfinal.1, List.isEmpty_nil, if_true]
  · have hfound : final.tokens.reverse =
        before.map escapedToken ++ .oneOf ⟨false, [(c, c)]⟩ :: after.map escapedToken := by
      rw [htokens', State.push, htokens]
      simp
    rw [hfound, tokensDescribe_append, List.flatMap_append, List.flatMap_cons]
    constructor
    · rintro ⟨u, v, rfl, hu, hv⟩
      obtain ⟨w, x, rfl, hw, hx⟩ := (tokensDescribe_cons _ _ v).mp hv
      rw [(tokensDescribe_escaped before u).mp hu, (describes_class hc.isAscii w).mp hw,
        (tokensDescribe_escaped after x).mp hx]
    · rintro rfl
      exact ⟨_, _, rfl, (tokensDescribe_escaped before _).mpr rfl,
        (tokensDescribe_cons _ _ _).mpr ⟨_, _, rfl, (describes_class hc.isAscii _).mpr rfl,
          (tokensDescribe_escaped after _).mpr rfl⟩⟩

end Glob

lemma isPlainChar_of_isPlainName {name : String} (h : IsPlainName name) :
    ∀ c ∈ name.toList, Glob.IsPlainChar c := by
  intro c hc
  refine ⟨?_, (areEscapable_of_isPlainName (List.forall_mem_singleton.mpr h) name
    (List.mem_singleton_self name)).2 c hc⟩
  have hplain := h.isPlain
  rw [InputPattern.hasGlobCharacters, List.any_eq_false] at hplain
  have hnot := hplain c hc
  rw [← Bool.not_eq_true]
  intro hescaped
  rcases Glob.isEscaped_cases hescaped with rfl | rfl | rfl | rfl | rfl | rfl <;>
    exact hnot (by decide)

/-! ### The two patterns -/

/-- The step is spelled as the name is, but for a class that holds just one character in place of
that character. -/
def IsClassedName (name step : String) : Prop :=
  ∃ before c after, Glob.IsClassable c ∧ name = String.ofList (before ++ c :: after) ∧
    step = String.ofList (before ++ '[' :: c :: ']' :: after)

lemma IsClassedName.not_isPlainStep {name step : String} (h : IsClassedName name step) :
    isPlainStep (.name step) = false := by
  obtain ⟨before, c, after, -, -, rfl⟩ := h
  rw [isPlainStep, Path.Step.text, InputPattern.hasGlobCharacters, Bool.not_eq_false',
    List.any_eq_true]
  exact ⟨'[', by simp, by decide⟩

/-- What the step describes behind a slash is the name. -/
lemma IsClassedName.exists_readTokens {name step : String} (h : IsClassedName name step)
    (hname : IsPlainName name) :
    ∃ tokens, Glob.readTokens false (spelled [step]) = .ok tokens ∧
      ∀ text, TokensDescribe tokens text ↔ text = spelledBytes [name] := by
  obtain ⟨before, c, after, hc, rfl, rfl⟩ := h
  have hplain := isPlainChar_of_isPlainName hname
  rw [String.toList_ofList] at hplain
  obtain ⟨hbefore, hmiddle⟩ := List.forall_mem_append.mp hplain
  have hslash : Glob.IsPlainChar '/' := by
    unfold Glob.IsPlainChar Glob.IsEscapable
    decide
  obtain ⟨tokens, htokens, hdescribe⟩ := Glob.exists_readTokens_class
    (List.forall_mem_cons.mpr ⟨hslash, hbefore⟩) (List.forall_mem_cons.mp hmiddle).2 hc
  refine ⟨tokens, ?_, fun text => ?_⟩
  · rw [← htokens]
    simp [spelled]
  · rw [hdescribe, ← Glob.flatMap_spelled]
    simp [spelled]

/-- **A file named in two ways**, as a path from the base directory: `literal` gives the names of
directories and then a name, `classed` the same but for a class that holds one character of that
name.  Neither begins with `!`, which would make it a pattern that excludes files. -/
structure NamesInTwoWays (dirs : List String) (name step literal classed : String) : Prop where
  plainDirs : ∀ dir ∈ dirs, IsPlainName dir
  plainName : IsPlainName name
  notDotted : ¬ IsDotted name
  isClassedName : IsClassedName name step
  literalBegins : Begins literal (dirs ++ [name]) []
  classedBegins : Begins classed dirs [.name step]
  literalPositive : negated? literal = none
  classedPositive : negated? classed = none

section

variable {dirs : List String} {name step literal classed : String}
  (h : NamesInTwoWays dirs name step literal classed) {base : List String}
  (hbase : ∀ name ∈ base, IsProperName name) (hescapable : AreEscapable base)

namespace NamesInTwoWays

include h hbase

lemma ofText_literal :
    InputPattern.ofText (below "/" base) literal = ⟨below "/" (base ++ dirs ++ [name]), []⟩ := by
  have hnames : ∀ n ∈ dirs ++ [name], IsPlainName n :=
    List.forall_mem_append.mpr ⟨h.plainDirs, List.forall_mem_singleton.mpr h.plainName⟩
  have hinner : Path.leadsTo? [] (([] : List Path.Step).takeWhile isPlainStep) = some [] := rfl
  rw [h.literalBegins.ofText_eq hnames hinner hbase, List.append_nil, List.append_assoc]
  rfl

lemma ofText_classed :
    InputPattern.ofText (below "/" base) classed = ⟨below "/" (base ++ dirs), [step]⟩ := by
  have hglob : ¬ isPlainStep (.name step) = true := by simp [h.isClassedName.not_isPlainStep]
  have hinner : Path.leadsTo? [] ([Path.Step.name step].takeWhile isPlainStep) = some [] := by
    rw [List.takeWhile_cons_of_neg hglob]
    rfl
  rw [h.classedBegins.ofText_eq h.plainDirs hinner hbase, List.append_nil,
    List.dropWhile_cons_of_neg hglob]
  rfl

lemma isLiteral_classed :
    (InputPattern.ofText (below "/" base) classed).isLiteral = false := by
  rw [h.ofText_classed hbase]
  rfl

include hescapable

/-- **What the class matches** below the directory is the name that it replaces. -/
lemma exists_readPatternGlob_classed :
    ∃ glob, readPatternGlob (InputPattern.ofText (below "/" base) classed).globText = .ok glob ∧
      ∀ place, (∀ n ∈ place, IsName n) → place ≠ [] →
        (glob.matchesPath (below "/" (base ++ dirs ++ place)) = true ↔ place = [name]) := by
  have hfront := hescapable.append (areEscapable_of_isPlainName h.plainDirs)
  have hname := h.plainName.isProperName.isName
  obtain ⟨tokens, htokens, hdescribe⟩ := h.isClassedName.exists_readTokens h.plainName
  have hbehind : (InputPattern.ofText (below "/" base) classed).behindRoot = spelled [step] := by
    rw [InputPattern.behindRoot_eq_spelled (h.isLiteral_classed hbase), h.ofText_classed hbase]
  have hread := alike_readPatternGlob hfront
    (InputPattern.isBehind_behindRoot (InputPattern.ofText (below "/" base) classed))
  rw [hbehind, htokens] at hread
  obtain ⟨glob, hglob, hfits⟩ := hread.exists_of_ok
  refine ⟨glob, ?_, fun place hplace hne => ?_⟩
  · rw [InputPattern.globText_eq_globBehind hfront.isName (by rw [h.ofText_classed hbase]), hbehind,
      hglob]
  · rw [hfits place hplace (by simp [hne]), hdescribe]
    refine ⟨fun heq => spelledBytes_injective hplace (List.forall_mem_singleton.mpr hname) heq, ?_⟩
    rintro rfl
    rfl

end NamesInTwoWays

/-! ### What the two patterns find -/

/-- Whether a file is at the path, and not a link. -/
def Disk.isRegularFile (d : Disk) (path : String) : Bool :=
  match d.entry path with
  | .ok node => node.isFile
  | .error _ => false

lemma Disk.isRegularFile_iff (d : Disk) (path : String) :
    d.isRegularFile path = true ↔ ∃ content, d.entry path = .ok (.file content) := by
  unfold isRegularFile
  rcases d.entry path with error | (content | target | entries) <;> simp [Node.isFile]

/-- What stands under the name, if anything does, is within the limits of the system. -/
def Disk.IsReachable (d : Disk) (dirs : List String) (name : String) : Prop :=
  ∀ start node, d.node (below "/" dirs) = .ok start → start.at? [name] = some node →
    IsWithinLimits (dirs ++ [name])

namespace NamesInTwoWays

include h hbase hescapable

/-- **What the class finds** is what stands under the name, if that is a file and is kept. -/
lemma isFound_classed_iff {d : Disk} (hd : d.IsFileSystem) {kept : String → Prop} {glob : Glob}
    (hglob : (InputPattern.ofText (below "/" base) classed).HasGlob glob)
    (hlimits : d.IsReachable (base ++ dirs) name) (place : List String) :
    IsFound d kept (InputPattern.ofText (below "/" base) classed) glob place ↔
      place = [name] ∧ d.isRegularFile (below "/" (base ++ dirs ++ [name])) = true ∧
        kept (below "/" (base ++ dirs ++ [name])) := by
  have hproper := h.plainName.isProperName
  obtain ⟨glob', hread, hmatches⟩ := h.exists_readPatternGlob_classed hbase hescapable
  obtain rfl : glob = glob' :=
    Except.ok.inj (((readPatternGlob_eq_ok_iff _ _).mpr hglob).symm.trans hread)
  have hentry (content : ByteArray) :
      d.entry (below "/" (base ++ dirs ++ [name])) = .ok (.file content) ↔
        ∃ start, d.node (below "/" (base ++ dirs)) = .ok start ∧
          start.at? [name] = some (.file content) :=
    Disk.entry_below_concat hd.isDir
      (List.forall_mem_append.mpr ⟨hbase, fun dir hdir => (h.plainDirs dir hdir).isProperName⟩)
      hproper (fun start => hlimits start (.file content))
  have hroot : (InputPattern.ofText (below "/" base) classed).root = below "/" (base ++ dirs) := by
    rw [h.ofText_classed hbase]
  have hbelow (place : List String) : below (below "/" (base ++ dirs)) place =
      below "/" (base ++ dirs ++ place) := (Path.below_append "/" (base ++ dirs) place).symm
  rw [Disk.isRegularFile_iff]
  constructor
  -- What the walk finds is matched, so it is the name; and it stands in the directory at the root.
  · rintro ⟨hne, ⟨start, content, hstart, hfile⟩, hmatched, -, hkept⟩
    rw [hroot] at hstart hmatched hkept
    rw [hbelow] at hmatched hkept
    obtain ⟨around, haround⟩ := Disk.exists_at?_of_node hstart
    have hplace := (hd.isTree.at? haround).isName hfile
    obtain rfl := (hmatches place hplace hne).mp hmatched
    exact ⟨rfl, ⟨content, (hentry content).mpr ⟨start, hstart, hfile⟩⟩, hkept⟩
  · rintro ⟨rfl, ⟨content, hfile⟩, hkept⟩
    obtain ⟨start, hstart, hfile⟩ := (hentry content).mp hfile
    refine ⟨List.cons_ne_nil _ _, ⟨start, content, hroot.symm ▸ hstart, hfile⟩, ?_, Or.inr ?_, ?_⟩
    · rw [hroot, hbelow]
      exact (hmatches _ (List.forall_mem_singleton.mpr hproper.isName)
        (List.cons_ne_nil _ _)).mpr rfl
    · exact List.forall_mem_singleton.mpr h.notDotted
    · rw [hroot, hbelow]
      exact hkept

/-- The walk for the class comes to the name or to nothing. -/
lemma exists_expand_classed {d : Disk} (hd : d.IsFileSystem) {x : Exclusions} (hx : x.AreCovered)
    (hlimits : d.IsReachable (base ++ dirs) name) (ignore : IgnoreRules) {path : String}
    (hpath : path = below "/" (base ++ dirs ++ [name])) :
    ∃ paths, (InputPattern.ofText (below "/" base) classed).expand d x = .ok paths ∧
      paths.filter (fun path => !ignore.isIgnored path) =
        if d.isRegularFile path && (!x.excludesFile path && !ignore.isIgnored path)
        then [path] else [] := by
  obtain ⟨paths, hexpand⟩ : ∃ paths,
      (InputPattern.ofText (below "/" base) classed).expand d x = .ok paths := by
    obtain ⟨glob, hglob, -⟩ := h.exists_readPatternGlob_classed hbase hescapable
    unfold InputPattern.expand
    rw [if_neg (by simp [h.isLiteral_classed hbase]), hglob]
    exact ⟨_, rfl⟩
  refine ⟨paths, hexpand, ?_⟩
  have hfiles := InputPattern.filesOf_expand hd
    (InputPattern.isRooted_ofText (Path.isAbsolute_below (by decide) base) classed) hx ignore
    hexpand
  generalize paths.filter (fun path => !ignore.isIgnored path) = files at hfiles
  cases hfiles with
  | named hliteral | unnamed hliteral =>
    rw [h.isLiteral_classed hbase] at hliteral
    exact nomatch hliteral
  | @found _ glob hglob places hsorted hplaces =>
    have hkept : IsKept x.files ignore path ↔
        (!x.excludesFile path && !ignore.isIgnored path) = true := by
      simp [isKept_iff]
    -- sorted lists with the same members are equal
    have hsame : places =
        if d.isRegularFile path && (!x.excludesFile path && !ignore.isIgnored path)
        then [[name]] else [] := by
      have hasymm : Std.Asymm PlaceBefore := ⟨fun _ _ => List.lt_asymm⟩
      refine List.Pairwise.eq_of_mem_iff (r := PlaceBefore) hsorted (by split <;> simp) ?_
      intro place
      rw [hplaces place, h.isFound_classed_iff hbase hescapable hd hglob hlimits, ← hpath, hkept]
      split <;> simp_all
    rw [hsame, h.ofText_classed hbase]
    split
    · rw [List.map_singleton, hpath, ← Path.below_append]
    · rfl

end NamesInTwoWays

/-! ### Resolution -/

include hbase hescapable in
lemma exists_exclusions (disableDefaultIgnores : Bool) :
    ∃ x : Exclusions, x.AreCovered ∧ ∀ text, negated? text = none →
      Exclusions.ofPatterns (((allPatterns disableDefaultIgnores [text]).filterMap negated?).map
        (InputPattern.ofText (below "/" base))) = .ok x := by
  have hsame {text : String} (h : negated? text = none) (disable : Bool) :
      (allPatterns disable [text]).filterMap negated? =
        (allPatterns disable []).filterMap negated? := by
    rw [filterMap_allPatterns, filterMap_allPatterns, List.filterMap_cons_none h]
  rcases Exclusions.ofPatterns_allPatterns hbase hescapable [] with
    ⟨error, hnone⟩ | ⟨x, more, hx, htrue, hfalse, hmore⟩
  · exact nomatch hnone true
  · cases disableDefaultIgnores with
    | true => exact ⟨x, hx, fun text h => by rw [hsame h, htrue]⟩
    | false => exact ⟨more, hmore.areCovered, fun text h => by rw [hsame h, hfalse]⟩

lemma resolveInputs_single {d : Disk} {base text : String} {disableDefaultIgnores : Bool}
    (h : negated? text = none) {x : Exclusions}
    (hx : Exclusions.ofPatterns (((allPatterns disableDefaultIgnores [text]).filterMap
      negated?).map (InputPattern.ofText base)) = .ok x) {paths : List String}
    (hpaths : (InputPattern.ofText base text).expand d x = .ok paths) (ignore : IgnoreRules) :
    resolveInputs d base disableDefaultIgnores [text] ignore =
      .ok (firstSeen (paths.filter fun path => !ignore.isIgnored path)) := by
  have hnamed : [text].filter (fun text => (negated? text).isNone) = [text] := by simp [h]
  simp only [resolveInputs, hx, filter_allPatterns, hnamed, bind, Except.bind, List.map_cons,
    List.map_nil, List.mapM_cons, List.mapM_nil, hpaths, pure, Except.pure, List.flatten_cons,
    List.flatten_nil, List.append_nil]

include h hbase hescapable in
/-- **What the two patterns name.**  Both name the path or nothing, after the same exclusions and
ignore rules; the literal pattern asks for anything but a directory, the class for a regular
file. -/
theorem resolveInputs_twoWays {d : Disk} (hd : d.IsFileSystem)
    (hlimits : d.IsReachable (base ++ dirs) name) (disableDefaultIgnores : Bool)
    (ignore : IgnoreRules) {path : String} (hpath : path = below "/" (base ++ dirs ++ [name])) :
    ∃ keeps : Bool,
      resolveInputs d (below "/" base) disableDefaultIgnores [literal] ignore =
          .ok (if d.isNonDirectory path && keeps then [path] else []) ∧
        resolveInputs d (below "/" base) disableDefaultIgnores [classed] ignore =
          .ok (if d.isRegularFile path && keeps then [path] else []) := by
  have hseen (named : Bool) : firstSeen (if named then [path] else []) =
      if named then [path] else [] := by
    cases named <;> rfl
  obtain ⟨x, hx, hexclusions⟩ := exists_exclusions hbase hescapable disableDefaultIgnores
  refine ⟨!x.excludesFile path && !ignore.isIgnored path, ?_, ?_⟩
  · have hexpand : (InputPattern.ofText (below "/" base) literal).expand d x =
        .ok (if d.isNonDirectory path && !x.excludesFile path then [path] else []) := by
      rw [h.ofText_literal hbase, hpath]
      rfl
    have hpaths : (if d.isNonDirectory path && !x.excludesFile path then [path] else []).filter
          (fun path => !ignore.isIgnored path) =
        if d.isNonDirectory path && (!x.excludesFile path && !ignore.isIgnored path) then [path]
        else [] := by
      cases d.isNonDirectory path <;> cases x.excludesFile path <;>
        cases hignored : ignore.isIgnored path <;> simp [hignored]
    rw [resolveInputs_single h.literalPositive (hexclusions literal h.literalPositive) hexpand,
      hpaths, hseen]
  · obtain ⟨paths, hexpand, hpaths⟩ :=
      h.exists_expand_classed hbase hescapable hd hx hlimits ignore hpath
    rw [resolveInputs_single h.classedPositive (hexclusions classed h.classedPositive) hexpand,
      hpaths, hseen]

lemma Disk.isNonDirectory_eq {d : Disk} {path : String}
    (hlink : ∀ target, d.entry path ≠ .ok (.link target)) :
    d.isNonDirectory path = d.isRegularFile path := by
  unfold isNonDirectory isRegularFile
  rcases hentry : d.entry path with error | (content | target | entries)
  · rfl
  · rfl
  · exact absurd hentry (hlink target)
  · rfl

lemma Disk.exists_read_of_isRegularFile {d : Disk} {path : String}
    (h : d.isRegularFile path = true) : ∃ content, d.read path = .ok content := by
  obtain ⟨content, hentry⟩ := (d.isRegularFile_iff path).mp h
  rcases d.entry_cases path with ⟨target, hlink⟩ | hnode
  · rw [hentry] at hlink
    exact nomatch hlink
  · refine ⟨content, ?_⟩
    rw [read, ← hnode, hentry]
    rfl

include h hbase hescapable in
/-- **Naming a file literally and matching it by a class agree**, as long as no link stands under
its name: both patterns resolve to the same list, which is the path of a regular file that can be
read, or empty. -/
theorem resolveInputs_class {d : Disk} (hd : d.IsFileSystem)
    (hlimits : d.IsReachable (base ++ dirs) name)
    (hlink : ∀ target, d.entry (below "/" (base ++ dirs ++ [name])) ≠ .ok (.link target))
    (disableDefaultIgnores : Bool) (ignore : IgnoreRules) :
    ∃ files, resolveInputs d (below "/" base) disableDefaultIgnores [literal] ignore = .ok files ∧
      resolveInputs d (below "/" base) disableDefaultIgnores [classed] ignore = .ok files ∧
      ∀ file ∈ files, file = below "/" (base ++ dirs ++ [name]) ∧ d.isRegularFile file = true ∧
        ∃ content, d.read file = .ok content := by
  obtain ⟨keeps, hliteral, hclassed⟩ := resolveInputs_twoWays h hbase hescapable hd hlimits
    disableDefaultIgnores ignore rfl
  rw [Disk.isNonDirectory_eq hlink] at hliteral
  refine ⟨_, hliteral, hclassed, fun file hfile => ?_⟩
  split at hfile
  · next hkept =>
    obtain rfl := List.mem_singleton.mp hfile
    have hregular := (Bool.and_eq_true_iff.mp hkept).1
    exact ⟨rfl, hregular, Disk.exists_read_of_isRegularFile hregular⟩
  · exact nomatch hfile

end

/-- A file system with a stylesheet, a link that leads nowhere and one that leads to a directory. -/
def stylesheetAndLinks : Disk :=
  ⟨.dir [("a.css", .file .empty), ("b.css", .link "gone.css"), ("c.css", .link "/")], []⟩

lemma isFileSystem_stylesheetAndLinks : stylesheetAndLinks.IsFileSystem := by
  have hnames : IsName "a.css" ∧ IsName "b.css" ∧ IsName "c.css" := by
    unfold IsName
    decide
  obtain ⟨ha, hb, hc⟩ := hnames
  refine ⟨rfl, ?_⟩
  apply Node.isTree_dir
  · unfold Keyed.Sorted
    decide
  · simpa using ⟨⟨ha, Node.isTree_file .empty⟩, ⟨hb, Node.isTree_link _⟩, hc, Node.isTree_link _⟩

/-- The stylesheet is named by `a.css` and by `[a].css`. -/
theorem resolveInputs_class_stylesheet :
    ∃ files, resolveInputs stylesheetAndLinks "/" false ["a.css"] (.none "/") = .ok files ∧
      resolveInputs stylesheetAndLinks "/" false ["[a].css"] (.none "/") = .ok files ∧
      ∀ file ∈ files, file = "/a.css" ∧ stylesheetAndLinks.isRegularFile file = true ∧
        ∃ content, stylesheetAndLinks.read file = .ok content := by
  have hproper : IsProperName "a.css" := ⟨by unfold IsName; decide, by decide, by decide⟩
  have htwo : NamesInTwoWays [] "a.css" "[a].css" "a.css" "[a].css" :=
    { plainDirs := nofun
      plainName := ⟨hproper, by decide, by decide⟩
      notDotted := by unfold IsDotted; decide
      isClassedName := ⟨[], 'a', ".css".toList, ⟨by decide, by decide, by decide⟩, rfl, rfl⟩
      literalBegins := ⟨by decide, by decide⟩
      classedBegins := ⟨by decide, by decide⟩
      literalPositive := by decide
      classedPositive := by decide }
  have hbase : ∀ name ∈ ([] : List String), IsProperName name := nofun
  have hescapable : AreEscapable [] := nofun
  refine resolveInputs_class htwo hbase hescapable isFileSystem_stylesheetAndLinks ?_ ?_ false
    (.none "/")
  · exact fun _ _ _ _ => ⟨by decide, by decide, by decide⟩
  · intro target hlink
    have hregular : stylesheetAndLinks.isRegularFile "/a.css" = true := by decide +kernel
    obtain ⟨content, hentry⟩ := (Disk.isRegularFile_iff _ _).mp hregular
    exact nomatch hentry.symm.trans hlink

/-- **A link is named by the literal pattern alone**, be it one that leads nowhere, so that reading
it fails, or one that leads to a directory. -/
theorem resolveInputs_class_links :
    (resolveInputs stylesheetAndLinks "/" false ["b.css"] (.none "/") = .ok ["/b.css"] ∧
      resolveInputs stylesheetAndLinks "/" false ["[b].css"] (.none "/") = .ok [] ∧
      stylesheetAndLinks.readText "/b.css" = .error .notFound) ∧
    resolveInputs stylesheetAndLinks "/" false ["c.css"] (.none "/") = .ok ["/c.css"] ∧
      resolveInputs stylesheetAndLinks "/" false ["[c].css"] (.none "/") = .ok [] ∧
      stylesheetAndLinks.readText "/c.css" = .error .isADirectory := by
  refine ⟨⟨eq_ok_of_toOption (by decide +kernel), eq_ok_of_toOption (by decide +kernel), ?_⟩,
    eq_ok_of_toOption (by decide +kernel), eq_ok_of_toOption (by decide +kernel), ?_⟩
  · decide +kernel
  · decide +kernel

end SheetLint
