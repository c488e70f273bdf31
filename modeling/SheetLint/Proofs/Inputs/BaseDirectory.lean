import SheetLint.Proofs.Inputs.Resolution
import SheetLint.Proofs.Path.Around
import SheetLint.Proofs.Path.Normal
import SheetLint.Run

/-!
# Spellings of the base directory

The base directory of a run can be spelled with repeated slashes, with `.` and with `..`.  Patterns
are taken from the base directory with `.` and `..` carried out, so what they name does not depend
on the spelling (`namedFiles_normalize`).  But ignore rules are about paths that repeat the steps of
the base directory as they are spelled.

A spelling without `..` has the same steps as the normalized one, and the rules say the same below
both (`isIgnored_of_steps_eq`).  So it gives the same input files: `resolve_baseDir`.  The ignore
file is read from a path that begins with the spelling; the system follows both paths alike, as long
as it does not refuse the longer one, and an error names the path as it is spelled.

With `..` no file is below the base directory for the ignore rules, and none is ignored:
`resolveInputs_of_up_mem`.  For this no file may itself stand below a directory called `..`, which
no file system has.

What patterns name before ignore rules have their say is `namedFiles`.
-/

namespace SheetLint

open SheetLint.Path (isAbsolute join normalize steps)

/-! ### The ignore file -/

namespace Disk

lemma target_of_isAbsolute (d : Disk) {path : String} (h : isAbsolute path = true)
    (hsize : path.utf8ByteSize ≤ pathLimit) (asLink : Bool) :
    d.target path asLink =
      if path.toList.contains '\x00' then .error .zeroInPath
      else follow d.tree asLink linkLimit [] (piecesOf path) := by
  have hne : path.isEmpty = false := by
    rw [Bool.eq_false_iff, ne_eq, String.isEmpty_iff]
    rintro rfl
    exact nomatch h
  unfold target
  rw [if_neg (by simp [hne]), if_neg (Nat.not_lt.mpr hsize), if_pos h]

/-- **Behind a base directory without `..` a path leads to the same place**, whatever the spelling
of the base directory, as long as it is not too long. -/
lemma target_join_normalize (d : Disk) {base path : String} (hbase : isAbsolute base = true)
    (hup : .up ∉ steps base) (hsize : (join base path).utf8ByteSize ≤ pathLimit) (asLink : Bool) :
    d.target (join (normalize base) path) asLink = d.target (join base path) asLink := by
  cases hpath : isAbsolute path with
  | true => rw [join, if_pos hpath, join, if_pos hpath]
  | false =>
    have hsize' := (Path.utf8ByteSize_join_normalize_le hbase hup hpath).trans hsize
    have hzero : (join (normalize base) path).toList.contains '\x00' =
        (join base path).toList.contains '\x00' := by
      rw [Bool.eq_iff_iff, List.contains_iff_mem, List.contains_iff_mem]
      exact Path.mem_join_normalize_iff hbase hup hpath (by decide) (by decide)
    have hrest : (Text.pieces '/' path.toList).map String.ofList ≠ [] := by
      simpa using Text.pieces_ne_nil '/' path.toList
    have hfilter (pieces : List (List Char)) :
        follow d.tree asLink linkLimit []
            ((pieces ++ Text.pieces '/' path.toList).map String.ofList) =
          follow d.tree asLink linkLimit []
            ((pieces.filter Path.isStep ++ Text.pieces '/' path.toList).map String.ofList) := by
      rw [List.map_append, follow_filter_leads _ _ _ _ _ hrest, filter_leads_map, List.map_append]
    obtain ⟨front, hpieces, hnormal⟩ := Path.exists_pieces_join_normalize hbase hup hpath
    rw [target_of_isAbsolute d (Path.isAbsolute_join (Path.isAbsolute_normalize hbase) path) hsize',
      target_of_isAbsolute d (Path.isAbsolute_join hbase path) hsize, hzero, piecesOf, piecesOf,
      hpieces, hnormal, hfilter, hfilter ([] :: front), Path.filter_isStep_cons_nil,
      Path.filter_isStep_cons_nil, List.filter_filter]
    simp only [Bool.and_self]

lemma readText_join_normalize (d : Disk) {base path : String} (hbase : isAbsolute base = true)
    (hup : .up ∉ steps base) (hsize : (join base path).utf8ByteSize ≤ pathLimit) :
    d.readText (join (normalize base) path) = d.readText (join base path) := by
  unfold readText read node
  rw [target_join_normalize d hbase hup hsize]

end Disk

/-! ### What ignore rules see of a path -/

namespace Path

lemma mem_of_mem_dropSteps {n : Nat} {pieces : List (List Char)} {piece : List Char}
    (h : piece ∈ dropSteps n pieces) : piece ∈ pieces := by
  fun_induction dropSteps n pieces with
  | case1 => exact h
  | case2 => exact h
  | case3 _ _ _ _ ih => exact List.mem_cons_of_mem _ (ih h)
  | case4 _ _ _ _ ih => exact List.mem_cons_of_mem _ (ih h)

/-- The text begins neither with a slash nor with `./`. -/
structure BeginsInside (path : String) : Prop where
  head : path.toList.head? ≠ some '/'
  here : ['.', '/'].isPrefixOf path.toList = false

/-- Pieces of which the first one names a step. -/
lemma beginsInside_ofPieces {piece : List Char} (hstep : isStep piece = true) (hslash : '/' ∉ piece)
    (more : List (List Char)) : BeginsInside (ofPieces (piece :: more)) := by
  obtain ⟨rest, hrest⟩ : ∃ rest, (ofPieces (piece :: more)).toList = piece ++ rest := by
    cases more with
    | nil => exact ⟨[], by simp [ofPieces, List.intercalate]⟩
    | cons second more =>
      exact ⟨'/' :: ['/'].intercalate (second :: more), by simp [ofPieces, List.intercalate]⟩
  obtain ⟨hempty, hhere⟩ : piece ≠ [] ∧ piece ≠ ['.'] := by simpa [isStep] using hstep
  obtain ⟨c, piece, rfl⟩ := List.exists_cons_of_ne_nil hempty
  rw [List.mem_cons, not_or] at hslash
  refine ⟨?_, ?_⟩
  · rw [hrest]
    simpa using Ne.symm hslash.1
  · rw [hrest]
    by_cases hc : c = '.'
    · subst hc
      cases piece with
      | nil => exact absurd rfl hhere
      | cons d piece =>
        have hd : d ≠ '/' := fun h => hslash.2 (h ▸ List.mem_cons_self)
        simp [List.isPrefixOf, Ne.symm hd]
    · simp [List.isPrefixOf, Ne.symm hc]

/-- What is left of a path behind a base directory begins with a step. -/
lemma beginsInside_of_below? {base path rest : String} (hbase : isAbsolute base = true)
    (h : below? base path = some rest) : BeginsInside rest := by
  have hsteps : (steps base).isEmpty = false := by rw [steps, if_pos hbase]; rfl
  unfold below? at h
  simp only [hsteps, Bool.false_eq_true, if_false] at h
  split at h
  · cases h
  cases h
  cases hleft : (dropSteps ((steps base).length - 1)
      (trimPieces (Text.pieces '/' path.toList).tail)).dropWhile fun p => !isStep p with
  | nil => exact ⟨by decide, by decide⟩
  | cons piece more =>
    have hmem : piece ∈ Text.pieces '/' path.toList := by
      refine List.mem_of_mem_tail (mem_of_mem_trimPieces (mem_of_mem_dropSteps
        (n := (steps base).length - 1) ((List.dropWhile_sublist fun p => !isStep p).subset ?_)))
      rw [hleft]
      exact List.mem_cons_self
    have hstep := List.head?_dropWhile_not (fun p => !isStep p) (dropSteps ((steps base).length - 1)
      (trimPieces (Text.pieces '/' path.toList).tail))
    rw [hleft] at hstep
    exact beginsInside_ofPieces (by simpa using hstep) (mem_pieces hmem).1 more

end Path

namespace IgnoreRules

lemma withoutBase_eq_self {base path : String} (hbase : isAbsolute base = true)
    (hpath : Path.BeginsInside path) : withoutBase base path = path := by
  obtain ⟨inner, hinner⟩ := Path.exists_toList_eq_cons hbase
  have hroot : withoutHere base.toList = '/' :: inner := by
    rw [hinner]
    rfl
  have hhere : withoutHere path.toList = path.toList := by
    rw [withoutHere, Text.behind?, if_neg (by simp [hpath.here])]
    rfl
  have hbehind : Text.behind? ('/' :: inner) path.toList = Option.none := by
    rw [Text.behind?, if_neg]
    cases htext : path.toList with
    | nil => simp
    | cons c text =>
      have hc : c ≠ '/' := by simpa [htext] using hpath.head
      simp [Ne.symm hc]
  unfold withoutBase
  simp only [hroot, hhere, hbehind, ite_self, String.ofList_toList]

/-- The base directory of rules plays no part in what they say about a path from it on. -/
lemma verdictFrom_base (base base' : String) (rules : List IgnoreRule) (rounds : Nat)
    (path : String) (isDirectory : Bool) :
    verdictFrom ⟨base, rules⟩ rounds path isDirectory =
      verdictFrom ⟨base', rules⟩ rounds path isDirectory := by
  induction rounds generalizing path isDirectory with
  | zero => rfl
  | succ rounds ih => simp only [verdictFrom, ih, verdictOn]

/-- **Ignore rules see no more of their base directory than its steps.** -/
lemma isIgnored_of_steps_eq {base base' : String} (hbase : isAbsolute base = true)
    (hbase' : isAbsolute base' = true) (hsteps : steps base = steps base')
    (rules : List IgnoreRule) {path : String} (hpath : isAbsolute path = true) :
    isIgnored ⟨base, rules⟩ path = isIgnored ⟨base', rules⟩ path := by
  have hbelow : Path.below? base path = Path.below? base' path := by
    unfold Path.below?
    rw [hsteps]
  unfold isIgnored
  simp only [hpath, if_true, ← hbelow]
  cases hrest : Path.below? base path with
  | none => rfl
  | some rest =>
    have hbegins := Path.beginsInside_of_below? hbase hrest
    simp only [withoutBase_eq_self hbase hbegins, withoutBase_eq_self hbase' hbegins,
      verdictFrom_base base base']

lemma exists_ofLines (lines : List String) :
    (∃ bad, ∀ base, ofLines base lines = .error bad) ∨
      ∃ rules, ∀ base, ofLines base lines = .ok ⟨base, rules⟩ := by
  have hmap (base : String) :
      ofLines base lines = (ofLines "" lines).map fun r => ⟨base, r.rules⟩ := by
    unfold ofLines
    cases List.filterMapM (m := Except BadIgnoreLine) _ lines <;> rfl
  cases hlines : ofLines "" lines with
  | error bad => exact Or.inl ⟨bad, fun base => by rw [hmap, hlines, Except.map]⟩
  | ok r => exact Or.inr ⟨r.rules, fun base => by rw [hmap, hlines, Except.map]⟩

end IgnoreRules

/-! ### Resolution -/

lemma InputPattern.ofText_normalize {base : String} (hbase : isAbsolute base = true)
    (text : String) : ofText (normalize base) text = ofText base text := by
  simp only [ofText, Path.normalize_join_normalize hbase]

/-- A pattern names its root, or what a walk from there comes to. -/
lemma InputPattern.exists_of_mem_expand {d : Disk} {x : Exclusions} {p : InputPattern}
    {files : List String} (h : p.expand d x = .ok files) {path : String} (hpath : path ∈ files) :
    ∃ names, path = Path.below p.root names ∧
      (names = [] ∨ ∃ admits, names ∈ places admits p.root (walkStart d p.root)) := by
  unfold expand at h
  split at h
  · cases h
    split at hpath
    · exact ⟨[], List.mem_singleton.mp hpath, Or.inl rfl⟩
    · exact nomatch hpath
  · obtain ⟨glob, -, h⟩ := exists_of_bind_eq_ok h
    cases h
    rw [walk_eq_map_places] at hpath
    obtain ⟨names, hnames, rfl⟩ := List.mem_map.mp (List.mem_of_mem_filter hpath)
    exact ⟨names, rfl, Or.inr ⟨_, hnames⟩⟩

/-- The files that patterns name, before ignore rules have their say. -/
def namedFiles (d : Disk) (base : String) (disableDefaultIgnores : Bool) (patterns : List String) :
    Except ConfigError (List String) := do
  let all := allPatterns disableDefaultIgnores patterns
  let x ← Exclusions.ofPatterns ((all.filterMap negated?).map (InputPattern.ofText base))
  let named := (all.filter fun p => (negated? p).isNone).map (InputPattern.ofText base)
  let paths ← named.mapM (·.expand d x)
  .ok paths.flatten

lemma resolveInputs_eq_map (d : Disk) (base : String) (disableDefaultIgnores : Bool)
    (patterns : List String) (ignore : IgnoreRules) :
    resolveInputs d base disableDefaultIgnores patterns ignore =
      (namedFiles d base disableDefaultIgnores patterns).map fun files =>
        firstSeen (files.filter fun path => !ignore.isIgnored path) := by
  simp only [resolveInputs, namedFiles]
  cases Exclusions.ofPatterns _ with
  | error error => rfl
  | ok x =>
    simp only [bind, Except.bind]
    cases List.mapM (fun p : InputPattern => p.expand d x) _ <;> rfl

lemma namedFiles_normalize (d : Disk) {base : String} (hbase : isAbsolute base = true)
    (disableDefaultIgnores : Bool) (patterns : List String) :
    namedFiles d (normalize base) disableDefaultIgnores patterns =
      namedFiles d base disableDefaultIgnores patterns := by
  have hpatterns : InputPattern.ofText (normalize base) = InputPattern.ofText base :=
    funext (InputPattern.ofText_normalize hbase)
  simp only [namedFiles, hpatterns]

lemma exists_of_mem_namedFiles {d : Disk} {base : String} {disableDefaultIgnores : Bool}
    {patterns files : List String}
    (h : namedFiles d base disableDefaultIgnores patterns = .ok files) {path : String}
    (hpath : path ∈ files) :
    ∃ text names, path = Path.below (InputPattern.ofText base text).root names ∧
      (names = [] ∨ ∃ admits, names ∈ places admits (InputPattern.ofText base text).root
        (walkStart d (InputPattern.ofText base text).root)) := by
  unfold namedFiles at h
  obtain ⟨x, -, h⟩ := exists_of_bind_eq_ok h
  obtain ⟨lists, hlists, h⟩ := exists_of_bind_eq_ok h
  cases h
  obtain ⟨list, hlist, hmem⟩ := List.mem_flatten.mp hpath
  obtain ⟨p, hp, hexpand⟩ := exists_of_mem_mapM hlists hlist
  obtain ⟨text, -, rfl⟩ := List.mem_map.mp hp
  exact ⟨text, InputPattern.exists_of_mem_expand hexpand hmem⟩

lemma isAbsolute_of_mem_namedFiles {d : Disk} {base : String} (hbase : isAbsolute base = true)
    {disableDefaultIgnores : Bool} {patterns files : List String}
    (h : namedFiles d base disableDefaultIgnores patterns = .ok files) {path : String}
    (hpath : path ∈ files) : isAbsolute path = true := by
  obtain ⟨text, names, rfl, -⟩ := exists_of_mem_namedFiles h hpath
  exact Path.isAbsolute_below (InputPattern.isRooted_ofText hbase text).isAbsolute names

/-- **The same input files**, whatever the spelling of a base directory without `..`. -/
lemma resolveInputs_normalize (d : Disk) {base : String} (hbase : isAbsolute base = true)
    (hup : .up ∉ steps base) (disableDefaultIgnores : Bool) (patterns : List String)
    (rules : List IgnoreRule) :
    resolveInputs d (normalize base) disableDefaultIgnores patterns ⟨normalize base, rules⟩ =
      resolveInputs d base disableDefaultIgnores patterns ⟨base, rules⟩ := by
  rw [resolveInputs_eq_map, resolveInputs_eq_map, namedFiles_normalize d hbase]
  cases hfiles : namedFiles d base disableDefaultIgnores patterns with
  | error error => rfl
  | ok files =>
    have hkept : (files.filter fun path => !IgnoreRules.isIgnored ⟨normalize base, rules⟩ path) =
        files.filter fun path => !IgnoreRules.isIgnored ⟨base, rules⟩ path := by
      refine List.filter_congr fun path hpath => ?_
      rw [IgnoreRules.isIgnored_of_steps_eq (Path.isAbsolute_normalize hbase) hbase
        (Path.steps_normalize_of_up_not_mem hbase hup) rules
        (isAbsolute_of_mem_namedFiles hbase hfiles hpath)]
    rw [Except.map, Except.map, hkept]

/-! ### A base directory with `..` -/

/-- No file stands below a directory called `..`. -/
def Disk.NamesNoUp (d : Disk) : Prop :=
  ∀ place node, d.tree.at? place = some node → ".." ∉ place

lemma Path.up_not_mem_steps_below {root : String} (hroot : isAbsolute root = true)
    (hup : .up ∉ steps root) {names : List String}
    (hnames : ∀ name ∈ names, IsName name ∧ name ≠ "..") : .up ∉ steps (below root names) := by
  induction names using List.reverseRecOn with
  | nil => exact hup
  | append_singleton names name ih =>
    obtain ⟨hname, hne⟩ := hnames name (by simp)
    have hbelow : below root (names ++ [name]) = join (below root names) name := by simp [below]
    rw [hbelow, steps_join (isAbsolute_below hroot names) hname.not_isAbsolute, List.mem_append,
      not_or]
    refine ⟨ih fun n hn => hnames n (by simp [hn]), ?_⟩
    rw [innerSteps_eq_map, Text.pieces_of_not_mem hname.2]
    intro hmem
    obtain ⟨piece, hpiece, hstep⟩ := List.mem_map.mp hmem
    obtain rfl := List.mem_singleton.mp (List.mem_of_mem_filter hpiece)
    rw [stepOf] at hstep
    split at hstep
    · next hdots => exact hne (String.toList_injective hdots)
    · cases hstep

lemma Path.up_not_mem_steps_normalize {path : String} (h : isAbsolute path = true) :
    .up ∉ steps (normalize path) := by
  obtain ⟨names, -, hsteps, -⟩ := exists_normalSteps_eq h fun _ => mem_innerSteps
  rw [steps_normalize h, hsteps]
  simp

lemma up_not_mem_of_mem_namedFiles {d : Disk} (hd : d.tree.IsTree) (hnames : d.NamesNoUp)
    {base : String} (hbase : isAbsolute base = true) {disableDefaultIgnores : Bool}
    {patterns files : List String}
    (h : namedFiles d base disableDefaultIgnores patterns = .ok files) {path : String}
    (hpath : path ∈ files) : .up ∉ steps path := by
  obtain ⟨text, names, rfl, hwalk⟩ := exists_of_mem_namedFiles h hpath
  have hroot := (InputPattern.isRooted_ofText hbase text).isAbsolute
  refine Path.up_not_mem_steps_below hroot ?_ ?_
  · rw [InputPattern.root_ofText]
    exact Path.up_not_mem_steps_normalize (Path.isAbsolute_join hbase _)
  rcases hwalk with rfl | ⟨admits, hwalk⟩
  · exact fun _ hname => nomatch hname
  have htree := isTree_walkStart hd (InputPattern.ofText base text).root
  obtain ⟨⟨content, hfile⟩, -⟩ := (mem_places_iff admits htree _ names).mp hwalk
  intro name hname
  refine ⟨htree.isName hfile name hname, ?_⟩
  rintro rfl
  rcases walkStart_cases d (InputPattern.ofText base text).root with hstart | ⟨-, hempty⟩
  · obtain ⟨place, hplace⟩ := Disk.exists_at?_of_node hstart
    refine hnames (place ++ names) (.file content) ?_ (List.mem_append_right _ hname)
    rw [Disk.Node.at?_append, hplace]
    exact hfile
  · rw [hempty] at hfile
    cases names with
    | nil => exact nomatch hname
    | cons name names => exact nomatch hfile

/-- Nothing without `..` is below a base directory with `..`. -/
lemma IgnoreRules.isIgnored_of_up_mem {base path : String} (hup : .up ∈ steps base)
    (hpath : isAbsolute path = true) (hnone : .up ∉ steps path) (rules : List IgnoreRule) :
    isIgnored ⟨base, rules⟩ path = false := by
  have hbelow : Path.below? base path = Option.none := by
    have hfront : (steps base).isPrefixOf (steps path) = false := by
      rw [Bool.eq_false_iff, ne_eq, List.isPrefixOf_iff_prefix]
      exact fun hfront => hnone (hfront.subset hup)
    unfold Path.below?
    simp only [hfront, Bool.not_false, if_true]
  unfold isIgnored
  simp only [hpath, if_true, hbelow]

/-- **With `..` in the base directory nothing is ignored**: all files that the patterns name are
input files, whatever the rules. -/
theorem resolveInputs_of_up_mem {d : Disk} (hd : d.tree.IsTree) (hnames : d.NamesNoUp)
    {base : String} (hbase : isAbsolute base = true) (hup : .up ∈ steps base)
    (disableDefaultIgnores : Bool) (patterns : List String) (rules : List IgnoreRule) :
    resolveInputs d base disableDefaultIgnores patterns ⟨base, rules⟩ =
      (namedFiles d base disableDefaultIgnores patterns).map firstSeen := by
  rw [resolveInputs_eq_map]
  cases hfiles : namedFiles d base disableDefaultIgnores patterns with
  | error error => rfl
  | ok files =>
    have hkept : (files.filter fun path => !IgnoreRules.isIgnored ⟨base, rules⟩ path) = files := by
      rw [List.filter_eq_self]
      intro path hpath
      rw [IgnoreRules.isIgnored_of_up_mem hup (isAbsolute_of_mem_namedFiles hbase hfiles hpath)
        (up_not_mem_of_mem_namedFiles hd hnames hbase hfiles hpath) rules]
      rfl
    rw [Except.map, Except.map, hkept]

/-! ### Runs -/

/-- The error with the path of an ignore file normalized. -/
def RunError.normalized : RunError → RunError
  | .ignoreFile path error => .ignoreFile (normalize path) error
  | error => error

lemma readIgnoreFile_cases (d : Disk) {base path : String} (hbase : isAbsolute base = true)
    (hup : .up ∉ steps base) (hsize : (join base path).utf8ByteSize ≤ Disk.pathLimit) :
    (∃ text, readIgnoreFile d (join base path) = .ok text ∧
      readIgnoreFile d (join (normalize base) path) = .ok text) ∨
    ∃ error, readIgnoreFile d (join base path) = .error (.ignoreFile (join base path) error) ∧
      readIgnoreFile d (join (normalize base) path) =
        .error (.ignoreFile (join (normalize base) path) error) := by
  unfold readIgnoreFile
  rw [Disk.readText_join_normalize d hbase hup hsize]
  cases d.readText (join base path) with
  | ok text => exact Or.inl ⟨text, rfl, rfl⟩
  | error error =>
    by_cases hmissing : error = .notFound
    · subst hmissing
      exact Or.inl ⟨"", rfl, rfl⟩
    · refine Or.inr ⟨error, ?_, ?_⟩ <;>
      · split
        · next heq => exact nomatch heq
        · next heq => exact absurd (Except.error.inj heq) hmissing
        · next heq => rw [Except.error.inj heq]

lemma loadIgnoreRules_cases (d : Disk) {base : String} (hbase : isAbsolute base = true)
    (hup : .up ∉ steps base) {ignorePath : Option String}
    (hsize : (join base (ignorePath.getD defaultIgnorePath)).utf8ByteSize ≤ Disk.pathLimit)
    (lines : List String) :
    (∃ rules, loadIgnoreRules d base ignorePath lines = .ok ⟨base, rules⟩ ∧
      loadIgnoreRules d (normalize base) ignorePath lines = .ok ⟨normalize base, rules⟩) ∨
    ∃ error error', loadIgnoreRules d base ignorePath lines = .error error ∧
      loadIgnoreRules d (normalize base) ignorePath lines = .error error' ∧
      error.normalized = error'.normalized := by
  unfold loadIgnoreRules
  rcases readIgnoreFile_cases d hbase hup hsize with ⟨text, hread, hread'⟩ | ⟨error, hread, hread'⟩
  · rw [hread, hread']
    rcases IgnoreRules.exists_ofLines (lines ++ (Text.lines text.toList).map String.ofList) with
      ⟨bad, hbad⟩ | ⟨rules, hrules⟩
    · refine Or.inr ⟨.config (.badIgnoreLine bad), _, ?_, ?_, rfl⟩ <;>
      · simp only [bind, Except.bind, hbad]
        rfl
    · refine Or.inl ⟨rules, ?_, ?_⟩ <;>
      · simp only [bind, Except.bind, hrules]
        rfl
  · rw [hread, hread']
    exact Or.inr ⟨_, _, rfl, rfl, by
      simp only [RunError.normalized, Path.normalize_join_normalize hbase]⟩

/-- **The spelling of the base directory does not change what is linted**, as long as it has no
`..`: a run resolves the same input files as with the normalized base directory, or ends with the
same error, which names the ignore file as it is spelled. -/
theorem resolve_baseDir (o : RunOptions) (d : Disk) (patterns : List String) {base : String}
    (hbase : isAbsolute base = true) (hup : .up ∉ steps base)
    (hsize : (join base (o.ignorePath.getD defaultIgnorePath)).utf8ByteSize ≤ Disk.pathLimit) :
    (RunOptions.resolve { o with baseDir := some base } d patterns).mapError
        RunError.normalized =
      (RunOptions.resolve { o with baseDir := some (normalize base) } d patterns).mapError
        RunError.normalized := by
  have hdir {dir : String} (h : isAbsolute dir = true) :
      RunOptions.baseDirIn { o with baseDir := some dir } d = dir := by
    show join d.workingDir dir = dir
    rw [join, if_pos h]
  have hnormal := Path.isAbsolute_normalize hbase
  simp only [RunOptions.resolve, hdir hbase, hdir hnormal]
  rcases loadIgnoreRules_cases d hbase hup hsize o.ignorePatterns with
    ⟨rules, hrules, hrules'⟩ | ⟨error, error', herror, herror', heq⟩
  · rw [hrules, hrules']
    simp only [bind, Except.bind]
    rw [resolveInputs_normalize d hbase hup]
  · rw [herror, herror']
    exact congrArg Except.error heq

/-- A directory with two stylesheets and a directory. -/
def twoStyles : Disk :=
  ⟨.dir [("a.css", .file .empty), ("b.css", .file .empty), ("sub", .dir [])], []⟩

/-- Options that ignore one of the stylesheets. -/
def ignoresOne : RunOptions := { ignorePatterns := ["a.css"] }

/-- With `/./` for the root directory the stylesheet stays ignored. -/
theorem resolve_baseDir_here :
    (RunOptions.resolve { ignoresOne with baseDir := some "/./" } twoStyles ["*.css"]).mapError
        RunError.normalized = .ok ["/b.css"] ∧
      (RunOptions.resolve { ignoresOne with baseDir := some "/" } twoStyles ["*.css"]).mapError
        RunError.normalized = .ok ["/b.css"] := by
  have hsame := resolve_baseDir ignoresOne twoStyles ["*.css"]
    (show isAbsolute "/./" = true by decide) (by decide) (by decide +kernel)
  have hnormal : normalize "/./" = "/" := by decide
  have hroot : (RunOptions.resolve { ignoresOne with baseDir := some "/" } twoStyles
      ["*.css"]).mapError RunError.normalized = .ok ["/b.css"] :=
    eq_ok_of_toOption (by decide +kernel)
  rw [hnormal] at hsame
  exact ⟨hsame.trans hroot, hroot⟩

/-- With `/sub/..` for the root directory it is linted. -/
theorem resolve_baseDir_up :
    RunOptions.resolve { ignoresOne with baseDir := some "/sub/.." } twoStyles ["*.css"] =
        .ok ["/a.css", "/b.css"] ∧
      RunOptions.resolve { ignoresOne with baseDir := some (normalize "/sub/..") } twoStyles
        ["*.css"] = .ok ["/b.css"] :=
  ⟨eq_ok_of_toOption (by decide +kernel), eq_ok_of_toOption (by decide +kernel)⟩

end SheetLint
