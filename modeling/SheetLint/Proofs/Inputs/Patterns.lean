import SheetLint.Inputs
import SheetLint.Proofs.Disk.Tree
import SheetLint.Proofs.Except
import SheetLint.Proofs.Glob.Escape
import SheetLint.Proofs.Glob.Subtree
import SheetLint.Proofs.Text.Pieces

/-!
# The roots and the globs of patterns

The root of a pattern is the root directory followed by names (`exists_root_ofText`), since `.` and
`..` are carried out in it.  The glob of a pattern is about what is below the root, and never about
the root itself: `not_matchesPath_root`.  Where the root has no backslash it stands for itself in
the glob, and a slash must follow; where it has one, the glob matches nothing there at all.  So a
walk whose root is a file finds nothing.

Of the exclusions it is shown here that pruning is harmless.  A directory is pruned only by a glob
that ends in `/**`, read without that ending (`AreCovered`, which every added pattern keeps), and
such a glob excludes whatever is in the directory: `excludesFile_of_excludesDirectory`.  What
excludes files is one glob for each negated pattern, in order (`ofPatterns_eq_ok`).

The patterns that are added for dependency directories are negated ones, so they only exclude
(`filter_allPatterns`, `filterMap_allPatterns`).
-/

namespace SheetLint

namespace InputPattern

/-- The steps of a pattern before the first one with glob characters, as a path. -/
def literalPrefix (text : String) : String :=
  Path.ofSteps ((Path.steps text).takeWhile fun step => !hasGlobCharacters step.text)

/-- `glob` is the glob of the pattern. -/
def HasGlob (p : InputPattern) (glob : Glob) : Prop := Glob.read false p.globText = .ok glob

/-- The root is an absolute path of names. -/
structure IsRooted (p : InputPattern) : Prop where
  isAbsolute : Path.isAbsolute p.root = true
  endsInSlash : p.root = "/" ∨ ¬ Path.EndsInSlash p.root

lemma root_ofText (base text : String) :
    (ofText base text).root = Path.normalize (Path.join base (literalPrefix text)) := by
  simp only [ofText, literalPrefix]

lemma exists_root_ofText {base : String} (hbase : Path.isAbsolute base = true) (text : String) :
    ∃ names, (∀ name ∈ names, Path.IsName name) ∧
      (ofText base text).root = Path.below "/" names := by
  obtain ⟨names, hnames, hname⟩ :=
    Path.exists_normalize_eq_below (Path.isAbsolute_join hbase (literalPrefix text))
  exact ⟨names, fun name hmem => (hname name hmem).1, (root_ofText base text).trans hnames⟩

lemma isRooted_ofText {base : String} (hbase : Path.isAbsolute base = true) (text : String) :
    (ofText base text).IsRooted := by
  obtain ⟨names, hname, hroot⟩ := exists_root_ofText hbase text
  refine ⟨?_, ?_⟩
  · rw [hroot]
    exact Path.isAbsolute_below (by decide) names
  · rw [hroot]
    by_cases hnil : names = []
    · exact Or.inl (by rw [hnil]; rfl)
    · exact Or.inr (Path.not_endsInSlash_below "/" hname hnil)

/-! ### Globs -/

lemma escapedRoot_of_not_endsInSlash {p : InputPattern} (h : ¬ Path.EndsInSlash p.root) :
    p.escapedRoot = Glob.escape p.root.toList := by
  unfold escapedRoot
  cases hreverse : p.root.toList.reverse with
  | nil =>
    have hempty : p.root = "" := String.toList_eq_nil_iff.mp (List.reverse_eq_nil_iff.mp hreverse)
    exact absurd (Or.inl hempty) h
  | cons c front =>
    have hlast : p.root.toList.getLast? = some c := by
      rw [← List.head?_reverse, hreverse]
      rfl
    have hc : c ≠ '/' := by
      rintro rfl
      exact h (Or.inr hlast)
    rw [List.dropWhile_cons_of_neg (by simpa using hc), ← hreverse, List.reverse_reverse]

/-- **The glob of a pattern is about what is below its root.** -/
lemma not_matchesPath_root {p : InputPattern} (hp : p.isLiteral = false)
    (hroot : ¬ Path.EndsInSlash p.root) {glob : Glob} (hglob : p.HasGlob glob) :
    glob.matchesPath p.root = false := by
  have htext : p.globText = String.ofList
      (Glob.escape p.root.toList ++ '/' :: ("/".intercalate p.rest).toList) := by
    rw [globText, hp, escapedRoot_of_not_endsInSlash hroot]
    apply String.toList_inj.mp
    simp [String.toList_append]
  rw [HasGlob, htext] at hglob
  by_cases hbackslash : '\\' ∈ p.root.toList
  · have hself : Glob.bytes p.root = p.root.toList.flatMap String.utf8EncodeChar ++ [] := by
      rw [List.append_nil, Glob.bytes_eq_flatMap]
    exact Glob.not_matchesPath_of_backslash hbackslash hglob hself
  · have hescapable : ∀ c ∈ p.root.toList, Glob.IsEscapable c :=
      fun c hc heq => hbackslash (heq ▸ hc)
    rw [← Bool.not_eq_true]
    intro hmatches
    obtain ⟨below, hbelow⟩ := Glob.exists_of_matchesPath_escape hescapable hglob hmatches
    rw [← Glob.bytes_eq_flatMap] at hbelow
    have hlen := congrArg List.length hbelow
    rw [List.length_append, List.length_cons] at hlen
    omega

end InputPattern

/-! ### Exclusions -/

/-- The patterns that are added are negated ones. -/
lemma filter_allPatterns (disableDefaultIgnores : Bool) (patterns : List String) :
    ((allPatterns disableDefaultIgnores patterns).filter fun text => (negated? text).isNone) =
      patterns.filter fun text => (negated? text).isNone := by
  have hadded : (dependencyPatterns.filter fun text => (negated? text).isNone) = [] := by decide
  unfold allPatterns
  split
  · rfl
  · rw [List.filter_append, hadded, List.append_nil]

/-- Those that exclude files are the given ones and those that are added. -/
lemma filterMap_allPatterns (disableDefaultIgnores : Bool) (patterns : List String) :
    (allPatterns disableDefaultIgnores patterns).filterMap negated? =
      patterns.filterMap negated? ++
        if disableDefaultIgnores then [] else dependencyPatterns.filterMap negated? := by
  unfold allPatterns
  split
  · rw [List.append_nil]
  · rw [List.filterMap_append]

lemma InputPattern.globText_of_directoryGlobText? {p : InputPattern} {text : String}
    (h : p.directoryGlobText? = some text) :
    p.globText = text ++ String.ofList Glob.subtreeEnding := by
  unfold InputPattern.directoryGlobText? at h
  obtain ⟨front, hfront, rfl⟩ := Option.map_eq_some_iff.mp h
  have htext : p.globText.toList = front ++ Glob.subtreeEnding := Text.eq_append_of_without? hfront
  rw [← String.ofList_append, ← htext, String.ofList_toList]

lemma readPatternGlob_eq_ok_iff (text : String) (glob : Glob) :
    readPatternGlob text = .ok glob ↔ Glob.read false text = .ok glob := by
  unfold readPatternGlob
  cases Glob.read false text <;> simp [Except.mapError]

namespace Exclusions

/-- `file` is the glob of a directory glob with `/**` at its end. -/
def Deepens (directory file : Glob) : Prop :=
  ∃ text, Glob.read false text = .ok directory ∧
    Glob.read false (text ++ String.ofList Glob.subtreeEnding) = .ok file

/-- Each directory glob comes from a file glob that ends in `/**`. -/
def AreCovered (x : Exclusions) : Prop :=
  ∀ directory ∈ x.directories, ∃ file ∈ x.files, Deepens directory file

lemma AreCovered.append {x : Exclusions} (hx : x.AreCovered) {file : Glob}
    {directories : List Glob} (h : ∀ directory ∈ directories, Deepens directory file) :
    AreCovered ⟨x.files ++ [file], x.directories ++ directories⟩ := by
  intro directory hmem
  rcases List.mem_append.mp hmem with hold | hnew
  · obtain ⟨earlier, hearlier, hdeepens⟩ := hx directory hold
    exact ⟨earlier, List.mem_append_left _ hearlier, hdeepens⟩
  · exact ⟨file, List.mem_append_right _ (List.mem_singleton_self file), h directory hnew⟩

lemma AreCovered.add {x next : Exclusions} (hx : x.AreCovered) {p : InputPattern}
    (h : x.add p = .ok next) :
    ∃ file, p.HasGlob file ∧ next.files = x.files ++ [file] ∧ next.AreCovered := by
  unfold Exclusions.add at h
  obtain ⟨file, hfile, h⟩ := exists_of_bind_eq_ok h
  obtain ⟨directory, hdirectory, h⟩ := exists_of_bind_eq_ok h
  cases h
  have hread := (readPatternGlob_eq_ok_iff _ _).mp hfile
  refine ⟨file, hread, rfl, hx.append fun glob hglob => ?_⟩
  cases htext : p.directoryGlobText? with
  | none =>
    rw [htext] at hdirectory
    cases hdirectory
    exact nomatch hglob
  | some text =>
    rw [htext, Option.mapM_some] at hdirectory
    obtain ⟨found, hfound, hsome⟩ := exists_of_bind_eq_ok hdirectory
    cases hsome
    obtain rfl : glob = found := by simpa using hglob
    refine ⟨text, (readPatternGlob_eq_ok_iff _ _).mp hfound, ?_⟩
    rw [← InputPattern.globText_of_directoryGlobText? htext]
    exact hread

lemma foldlM_add {patterns : List InputPattern} {x final : Exclusions} (hx : x.AreCovered)
    (h : patterns.foldlM add x = .ok final) :
    ∃ globs, List.Forall₂ InputPattern.HasGlob patterns globs ∧ final.files = x.files ++ globs ∧
      final.AreCovered := by
  induction patterns generalizing x with
  | nil =>
    cases h
    exact ⟨[], .nil, (List.append_nil _).symm, hx⟩
  | cons p patterns ih =>
    rw [List.foldlM_cons] at h
    obtain ⟨next, hadd, h⟩ := exists_of_bind_eq_ok h
    obtain ⟨file, hfile, hfiles, hnext⟩ := hx.add hadd
    obtain ⟨globs, hglobs, hfinal, hcovered⟩ := ih hnext h
    refine ⟨file :: globs, .cons hfile hglobs, ?_, hcovered⟩
    rw [hfinal, hfiles, List.append_assoc]
    rfl

/-- **The exclusions of patterns.**  The file globs are those of the patterns, and each directory
glob is covered by one of them. -/
lemma ofPatterns_eq_ok {patterns : List InputPattern} {x : Exclusions}
    (h : ofPatterns patterns = .ok x) :
    List.Forall₂ InputPattern.HasGlob patterns x.files ∧ x.AreCovered := by
  have hnone : none.AreCovered := fun _ hmem => nomatch hmem
  obtain ⟨globs, hglobs, hfiles, hx⟩ := foldlM_add hnone h
  have hfiles : x.files = globs := hfiles
  exact ⟨by rw [hfiles]; exact hglobs, hx⟩

/-- **Pruning is harmless.**  What is below an excluded directory is excluded. -/
lemma excludesFile_of_excludesDirectory {x : Exclusions} (hx : x.AreCovered)
    {directory lower : String} {below : List UInt8} (h : x.excludesDirectory directory = true)
    (hlower : Glob.bytes lower = Glob.bytes directory ++ 47 :: below)
    (habsolute : Path.isAbsolute lower = true) : x.excludesFile lower = true := by
  obtain ⟨glob, hglob, hmatches⟩ := List.any_eq_true.mp h
  obtain ⟨file, hfile, text, hread, hreadFile⟩ := hx glob hglob
  obtain ⟨inner, hinner⟩ := Path.bytes_of_isAbsolute habsolute
  have hfileMatches := Glob.matchesPath_below hread hreadFile hmatches hlower hinner
  exact List.any_eq_true.mpr ⟨file, hfile, hfileMatches⟩

end Exclusions

end SheetLint
