import Mathlib.Data.List.TakeWhile
import SheetLint.Inputs
import SheetLint.Proofs.Inputs.Patterns
import SheetLint.Proofs.Text.Blank

/-!
# Ignore rules in order

A path is decided by the innermost of the path and the directories around it that some rule is
about, and there by the last such rule.  A further rule comes last wherever it applies: at each
level it takes the decision to itself or leaves it where it was (`verdictOn_concat`).  So a plain
rule only adds to what is ignored, and an exception only takes away from it.  Both are cases of
`verdictFrom_of_levels`, which compares two lists of rules level by level.

An exception can take away inside of an ignored directory.  The level of the file comes before that
of the directory, so a rule for the file alone is enough.

Which of the two a line gives, or none, is told by its first character, blank lines apart
(`ofLine?_cases`).  For this it matters that reading a line first takes blanks away at its end only.

The lines of an ignore file come behind those that are given otherwise.  A file that is missing has
no lines, and any other failure to read it ends the run (`readIgnoreFile_eq`).
-/

namespace SheetLint

/-! ### Lines -/

namespace IgnoreRule

/-- The line is a comment or blank. -/
def IsRemark (line : String) : Prop :=
  line.toList.head? = some '#' ∨ ∀ c ∈ line.toList, Text.isBlank c = true

/-- The line makes an exception, so far as it is no remark. -/
def IsExcepting (line : String) : Prop := line.toList.head? = some '!'

lemma trimLine_prefix (line : List Char) : trimLine line <+: line := by
  unfold trimLine
  split
  · exact List.prefix_rfl
  · rw [Text.trimEnd, Text.trimStart, ← List.reverse_suffix, List.reverse_reverse]
    exact List.dropWhile_suffix _

lemma trimLine_eq_nil_iff (line : List Char) :
    trimLine line = [] ↔ ∀ c ∈ line, Text.isBlank c = true := by
  unfold trimLine
  split
  · next hescaped =>
    obtain ⟨front, hfront⟩ := Option.isSome_iff_exists.mp hescaped
    rw [Text.eq_append_of_without? hfront]
    refine iff_of_false (by simp) fun hblank => ?_
    exact absurd (hblank '\\' (by simp)) (by decide)
  · exact Text.trimEnd_eq_nil_iff line

lemma head?_trimLine {line : List Char} (h : trimLine line ≠ []) :
    (trimLine line).head? = line.head? := by
  obtain ⟨ending, hline⟩ := trimLine_prefix line
  obtain ⟨c, rest, hrest⟩ := List.exists_cons_of_ne_nil h
  conv => rhs; rw [← hline]
  rw [hrest]
  rfl

/-- A rule makes an exception if its line begins with `!`. -/
lemma readFront_fst (line : List Char) : (readFront line).1 = (line.head? == some '!') := by
  fun_cases readFront line with
  | case1 | case2 | case3 | case4 | case5 => rfl
  | case6 line hno hnumber hanchored hexception hslash =>
    cases line with
    | nil => rfl
    | cons c rest =>
      have hc : c ≠ '!' := fun hc => hexception rest (by rw [hc])
      simp [hc]

/-- **What a line gives**: nothing if it is a remark, else one rule. -/
lemma ofLine?_cases {line : String} {found : Option IgnoreRule} (h : ofLine? line = .ok found) :
    IsRemark line ∧ found = none ∨
      ¬ IsRemark line ∧
        ∃ rule, found = some rule ∧ (rule.isException = true ↔ IsExcepting line) := by
  have hremark : (line.toList.head? = some '#' ∨ trimLine line.toList = []) ↔ IsRemark line :=
    or_congr_right (trimLine_eq_nil_iff line.toList)
  unfold ofLine? at h
  dsimp only at h
  split at h
  · next hline =>
    cases h
    exact Or.inl ⟨hremark.mp hline, rfl⟩
  · next hline =>
    refine Or.inr ⟨fun h => hline (hremark.mpr h), ?_⟩
    split at h
    · cases h
      refine ⟨_, rfl, ?_⟩
      have hne : trimLine line.toList ≠ [] := fun hnil => hline (Or.inr hnil)
      show (readFront (trimLine line.toList)).1 = true ↔ _
      rw [readFront_fst, head?_trimLine hne, beq_iff_eq, IsExcepting]
    · exact nomatch h

end IgnoreRule

namespace IgnoreRules

open IgnoreRule (IsRemark IsExcepting)

/-- **The last line.**  Lines hold the rules of those before the last one, and then its own. -/
lemma exists_of_ofLines_concat {base : String} {lines : List String} {line : String}
    {more : IgnoreRules} (h : ofLines base (lines ++ [line]) = .ok more) :
    ∃ rules found, ofLines base lines = .ok ⟨base, rules⟩ ∧ IgnoreRule.ofLine? line = .ok found ∧
      more = ⟨base, rules ++ found.toList⟩ := by
  unfold ofLines at h ⊢
  obtain ⟨all, hall, h⟩ := exists_of_bind_eq_ok h
  cases h
  obtain ⟨rules, found, hrules, hfound, rfl⟩ := exists_of_filterMapM_concat hall
  refine ⟨rules, found, by rw [hrules]; rfl, ?_, rfl⟩
  cases hline : IgnoreRule.ofLine? line with
  | ok rule =>
    rw [hline] at hfound
    cases hfound
    rfl
  | error fault =>
    rw [hline] at hfound
    exact nomatch hfound

/-! ### Level by level -/

/-- Where a further rule applies it decides, and elsewhere it changes nothing. -/
lemma verdictOn_concat (base : String) (rules : List IgnoreRule) (rule : IgnoreRule)
    (path : String) (isDirectory : Bool) :
    verdictOn ⟨base, rules ++ [rule]⟩ path isDirectory =
      if rule.applies path isDirectory then
        if rule.isException then .excepted else .ignored
      else verdictOn ⟨base, rules⟩ path isDirectory := by
  unfold verdictOn
  rw [List.reverse_append, List.reverse_singleton, List.singleton_append, List.find?_cons]
  by_cases happlies : rule.applies path isDirectory = true
  · simp [happlies]
  · simp [happlies]

/-- **Rules compared level by level.**  What some rules ignore others ignore too, if at each level
the others say the same or ignore, unless the first ones make an exception.  The induction goes
outwards, as far as both are silent. -/
lemma verdictFrom_of_levels {r r' : IgnoreRules}
    (hlevels : ∀ path isDirectory, r.verdictOn path isDirectory = .excepted ∨
      r'.verdictOn path isDirectory = .ignored ∨
      r'.verdictOn path isDirectory = r.verdictOn path isDirectory)
    {rounds : Nat} {path : String} {isDirectory : Bool}
    (h : r.verdictFrom rounds path isDirectory = .ignored) :
    r'.verdictFrom rounds path isDirectory = .ignored := by
  induction rounds generalizing path isDirectory with
  | zero => exact h
  | succ rounds ih =>
    unfold verdictFrom at h ⊢
    rcases hlevels path isDirectory with hexcepted | hignored | hsame
    · rw [hexcepted] at h
      exact nomatch h
    · rw [hignored]
    · rw [hsame]
      cases hverdict : r.verdictOn path isDirectory with
      | ignored => rfl
      | excepted =>
        rw [hverdict] at h
        exact nomatch h
      -- both are silent here, so the directory around decides for both
      | silent =>
        rw [hverdict] at h
        cases hparent : Path.parent? path with
        | none =>
          rw [hparent] at h
          exact nomatch h
        | some parent =>
          rw [hparent] at h
          exact ih h

lemma isIgnored_of_levels {base : String} {rules rules' : List IgnoreRule}
    (hlevels : ∀ path isDirectory, verdictOn ⟨base, rules⟩ path isDirectory = .excepted ∨
      verdictOn ⟨base, rules'⟩ path isDirectory = .ignored ∨
      verdictOn ⟨base, rules'⟩ path isDirectory = verdictOn ⟨base, rules⟩ path isDirectory)
    {path : String} (h : isIgnored ⟨base, rules⟩ path = true) :
    isIgnored ⟨base, rules'⟩ path = true := by
  unfold isIgnored at h ⊢
  dsimp only at h ⊢
  cases hrelative : if Path.isAbsolute path then Path.below? base path else some path with
  | none =>
    rw [hrelative] at h
    exact nomatch h
  | some inner =>
    rw [hrelative] at h
    dsimp only at h ⊢
    split at h
    · exact nomatch h
    · next hinner =>
      rw [if_neg hinner]
      rw [beq_iff_eq] at h ⊢
      exact verdictFrom_of_levels hlevels h

/-- **A plain rule only adds.** -/
lemma isIgnored_concat {rule : IgnoreRule} (hrule : rule.isException = false) {base : String}
    {rules : List IgnoreRule} {path : String} (h : isIgnored ⟨base, rules⟩ path = true) :
    isIgnored ⟨base, rules ++ [rule]⟩ path = true := by
  refine isIgnored_of_levels (fun path isDirectory => Or.inr ?_) h
  rw [verdictOn_concat, hrule]
  by_cases happlies : rule.applies path isDirectory = true
  · exact Or.inl (if_pos happlies)
  · exact Or.inr (if_neg happlies)

/-- **An exception only takes away.** -/
lemma isIgnored_of_concat {rule : IgnoreRule} (hrule : rule.isException = true) {base : String}
    {rules : List IgnoreRule} {path : String}
    (h : isIgnored ⟨base, rules ++ [rule]⟩ path = true) : isIgnored ⟨base, rules⟩ path = true := by
  refine isIgnored_of_levels (fun path isDirectory => ?_) h
  rw [verdictOn_concat, hrule]
  by_cases happlies : rule.applies path isDirectory = true
  · exact Or.inl (if_pos happlies)
  · exact Or.inr (Or.inr (if_neg happlies).symm)

/-- The text of an ignore file is what its path holds, and empty if there is nothing. -/
lemma readIgnoreFile_eq (d : Disk) (path : String) :
    (∀ text, d.readText path = .ok text → readIgnoreFile d path = .ok text) ∧
      (d.readText path = .error .notFound → readIgnoreFile d path = .ok "") ∧
      ∀ error, error ≠ .notFound → d.readText path = .error error →
        readIgnoreFile d path = .error (.ignoreFile path error) := by
  unfold readIgnoreFile
  refine ⟨fun text h => by rw [h], fun h => by rw [h], fun error herror h => ?_⟩
  rw [h]
  cases error with
  | notFound => exact absurd rfl herror
  | alreadyExists | notADirectory | isADirectory | nameTooLong | tooManyLinks | zeroInPath
  | notText => rfl

/-- **Ignore rules are applied in order.**  A further line adds to what is ignored, or takes away
from it, or changes nothing, according to what it is.  The lines of an ignore file are further lines
behind the given ones; a missing file has none, and no other failure to read it is passed over. -/
theorem isIgnored_further_line :
    (∀ base lines line more, ofLines base (lines ++ [line]) = .ok more →
      ∃ rules, ofLines base lines = .ok rules ∧
        (¬ IsRemark line → ¬ IsExcepting line →
          ∀ path, rules.isIgnored path = true → more.isIgnored path = true) ∧
        (IsExcepting line → ∀ path, more.isIgnored path = true → rules.isIgnored path = true) ∧
        (IsRemark line → ∀ path, more.isIgnored path = rules.isIgnored path)) ∧
      ∀ (d : Disk) base ignorePath lines path,
        path = Path.join base (ignorePath.getD ".stylelintignore") →
        (∀ text, d.readText path = .ok text →
          loadIgnoreRules d base ignorePath lines =
            (ofLines base (lines ++ (Text.lines text.toList).map String.ofList)).mapError
              fun bad => .config (.badIgnoreLine bad)) ∧
        (d.readText path = .error .notFound →
          loadIgnoreRules d base ignorePath lines =
            (ofLines base lines).mapError fun bad => .config (.badIgnoreLine bad)) ∧
        ∀ error, error ≠ .notFound → d.readText path = .error error →
          loadIgnoreRules d base ignorePath lines = .error (.ignoreFile path error) := by
  constructor
  · intro base lines line more h
    obtain ⟨rules, found, hrules, hfound, rfl⟩ := exists_of_ofLines_concat h
    refine ⟨_, hrules, ?_⟩
    rcases IgnoreRule.ofLine?_cases hfound with ⟨hremark, rfl⟩ | ⟨hrule, rule, rfl, hexcepting⟩
    · rw [Option.toList_none, List.append_nil]
      exact ⟨fun h => absurd hremark h, fun _ _ h => h, fun _ _ => rfl⟩
    · rw [Option.toList_some]
      refine ⟨fun _ hplain path h => ?_, fun hexception path h => ?_, fun h => absurd h hrule⟩
      · exact isIgnored_concat (Bool.eq_false_iff.mpr fun h => hplain (hexcepting.mp h)) h
      · exact isIgnored_of_concat (hexcepting.mpr hexception) h
  · intro d base ignorePath lines path hpath
    -- the default name is `.stylelintignore`
    have hload : loadIgnoreRules d base ignorePath lines =
        (readIgnoreFile d path).bind fun text =>
          (ofLines base (lines ++ (Text.lines text.toList).map String.ofList)).mapError
            fun bad => .config (.badIgnoreLine bad) := by
      rw [hpath]
      rfl
    obtain ⟨htext, hmissing, herror⟩ := readIgnoreFile_eq d path
    refine ⟨fun text h => ?_, fun h => ?_, fun error hother h => ?_⟩
    · rw [hload, htext text h]
      rfl
    · have hnone : (Text.lines "".toList).map String.ofList = [] := by decide
      rw [hload, hmissing h, Except.bind, hnone, List.append_nil]
    · rw [hload, herror error hother h]
      rfl

/-- A file system with an ignore file of one line, which makes an exception. -/
def oneException : Disk :=
  ⟨.dir [("p", .dir [(".stylelintignore", .file "!dist/keep.css\n".toUTF8)])], []⟩

/-- An exception inside an ignored directory, which is decided by the file's own level.  It can be
given as a further line, or stand in the ignore file. -/
theorem isIgnored_further_line_exception :
    ∃ rules more, ofLines "/p" ["dist/"] = .ok rules ∧
      ofLines "/p" (["dist/"] ++ ["!dist/keep.css"]) = .ok more ∧
      rules.isIgnored "/p/dist/keep.css" = true ∧ more.isIgnored "/p/dist/keep.css" = false ∧
      (∀ path, more.isIgnored path = true → rules.isIgnored path = true) ∧
      loadIgnoreRules oneException "/p" Option.none ["dist/"] = .ok more ∧
      loadIgnoreRules oneException "/p" (some "gone") ["dist/"] = .ok rules := by
  have hlast : (ofLines "/p" (["dist/"] ++ ["!dist/keep.css"])).toOption.map
      (·.isIgnored "/p/dist/keep.css") = some false := by decide +kernel
  have hfirst : (ofLines "/p" ["dist/"]).toOption.map (·.isIgnored "/p/dist/keep.css") =
      some true := by decide +kernel
  have htext : oneException.readText (Path.join "/p" ".stylelintignore") =
      .ok "!dist/keep.css\n" := by
    decide +kernel
  have hmissing : oneException.readText (Path.join "/p" "gone") = .error .notFound := by
    decide +kernel
  have hlines : (Text.lines "!dist/keep.css\n".toList).map String.ofList = ["!dist/keep.css"] := by
    decide
  obtain ⟨more, hmore, hkept⟩ := Option.map_eq_some_iff.mp hlast
  have hmore := eq_ok_of_toOption hmore
  obtain ⟨rules, hrules, -, hexcepting, -⟩ := isIgnored_further_line.1 _ _ _ _ hmore
  rw [hrules] at hfirst
  obtain ⟨hload, -, -⟩ :=
    isIgnored_further_line.2 oneException "/p" Option.none ["dist/"] _ rfl
  obtain ⟨-, hloadMissing, -⟩ :=
    isIgnored_further_line.2 oneException "/p" (some "gone") ["dist/"] _ rfl
  refine ⟨rules, more, hrules, hmore, Option.some.inj hfirst, hkept, hexcepting rfl, ?_, ?_⟩
  · rw [hload _ htext, hlines, hmore]
    rfl
  · rw [hloadMissing hmissing, hrules]
    rfl

end IgnoreRules

end SheetLint
