import SheetLint.Proofs.Glob.Components
import SheetLint.Proofs.Inputs.Patterns

/-!
# Globs behind a front

The glob of a pattern begins with the escaped names of its root.  Names without backslashes stand
for themselves there, whatever other characters they have, and the glob says of the paths below them
what the rest of it describes: `alike_readPatternGlob`.  So two patterns that differ only in the
names at their front agree about what is below these names, and about whether they can be read at
all: `globsAgree_of_globText`.  The same goes for the globs of directories that prune a walk, which
are found by an ending that no escaped name can have (`without?_subtreeEnding_escape`).

The patterns that exclude dependency directories are about the components behind the base directory
and ask for one of them by its name.  They agree below two fronts as long as no component is renamed
to a dependency directory or from one: `globsAgree_dependency`.
-/

namespace SheetLint

open Glob (escape escapedToken spelledBytes TokensDescribe IsBehind componentTokens)
open SheetLint.Path (below spelled IsName)

/-! ### Escaped names -/

/-- Names whose characters stand for themselves in an escaped text. -/
def AreEscapable (names : List String) : Prop :=
  ∀ name ∈ names, IsName name ∧ ∀ c ∈ name.toList, Glob.IsEscapable c

lemma AreEscapable.isName {names : List String} (h : AreEscapable names) :
    ∀ name ∈ names, IsName name := fun name hname => (h name hname).1

lemma AreEscapable.append {front back : List String} (hfront : AreEscapable front)
    (hback : AreEscapable back) : AreEscapable (front ++ back) :=
  List.forall_mem_append.mpr ⟨hfront, hback⟩

lemma AreEscapable.isEscapable {names : List String} (h : AreEscapable names) :
    ∀ c ∈ spelled names, Glob.IsEscapable c := by
  intro c hc
  obtain ⟨name, hname, hc⟩ := List.mem_flatMap.mp hc
  rcases List.mem_cons.mp hc with rfl | hc
  · unfold Glob.IsEscapable
    decide
  · exact (h name hname).2 c hc

/-- A glob that begins with the escaped names. -/
def globBehind (front : List String) (more : List Char) : String :=
  String.ofList (escape (spelled front) ++ more)

lemma globBehind_append (front inner : List String) (more : List Char) :
    globBehind (front ++ inner) more = globBehind front (escape (spelled inner) ++ more) := by
  rw [globBehind, globBehind, Path.spelled_append, Glob.escape_append, List.append_assoc]

lemma isBehind_escape_append (inner : List String) {more : List Char} (hmore : IsBehind more) :
    IsBehind (escape (spelled inner) ++ more) := by
  cases inner with
  | nil => exact hmore
  | cons name inner => exact Or.inr ⟨_, rfl⟩

/-! ### What a glob behind a front matches -/

/-- The glob matches those paths below the names whose further part the tokens describe. -/
def Fits (front : List String) (tokens : List Glob.Token) (glob : Glob) : Prop :=
  ∀ names, (∀ name ∈ names, IsName name) → front ++ names ≠ [] →
    (glob.matchesPath (below "/" (front ++ names)) = true ↔
      TokensDescribe tokens (spelledBytes names))

/-- **Reading a glob behind a front.**  It can be read if what is behind the front can be read, and
means that for the paths below the front. -/
lemma alike_readPatternGlob {front : List String} (hfront : AreEscapable front) {more : List Char}
    (hmore : IsBehind more) :
    Alike (Fits front) (Glob.readTokens false more) (readPatternGlob (globBehind front more)) := by
  have hread := Glob.toOption_readTokens_escape hfront.isEscapable hmore
  unfold readPatternGlob Glob.read globBehind
  rw [String.toList_ofList]
  cases htokens : Glob.readTokens false more with
  | error defect =>
    rw [htokens] at hread
    cases hwhole : Glob.readTokens false (escape (spelled front) ++ more) with
    | error defect' => exact .error defect _
    | ok tokens =>
      rw [hwhole] at hread
      exact nomatch hread
  | ok tokens =>
    rw [htokens] at hread
    rw [eq_ok_of_toOption hread]
    refine .ok fun names hnames hne => ?_
    have hall := List.forall_mem_append.mpr ⟨hfront.isName, hnames⟩
    rw [Glob.matchesPath_ofTokens_escaped hmore htokens, Glob.bytes_below hall hne,
      Glob.flatMap_spelled, Glob.spelledBytes_append]
    simp

/-! ### Globs that agree -/

section

variable (front front' : List String)

/-- The one glob says of the paths below `front` what the other one says of those below
`front'`. -/
def Agree (glob glob' : Glob) : Prop :=
  ∀ names, (∀ name ∈ names, IsName name) → front ++ names ≠ [] → front' ++ names ≠ [] →
    glob.matchesPath (below "/" (front ++ names)) =
      glob'.matchesPath (below "/" (front' ++ names))

/-- The globs of two patterns agree, those for directories included. -/
structure GlobsAgree (p p' : InputPattern) : Prop where
  file : Alike (Agree front front') (readPatternGlob p.globText) (readPatternGlob p'.globText)
  directory : Alike (Option.Rel (Agree front front'))
    (p.directoryGlobText?.mapM readPatternGlob) (p'.directoryGlobText?.mapM readPatternGlob)

end

variable {front front' : List String}

lemma Fits.agree {tokens : List Glob.Token} {glob glob' : Glob} (h : Fits front tokens glob)
    (h' : Fits front' tokens glob') : Agree front front' glob glob' := by
  intro names hnames hne hne'
  rw [Bool.eq_iff_iff, h names hnames hne, h' names hnames hne']

lemma alike_readPatternGlob_behind (hfront : AreEscapable front) (hfront' : AreEscapable front')
    {more : List Char} (hmore : IsBehind more) :
    Alike (Agree front front') (readPatternGlob (globBehind front more))
      (readPatternGlob (globBehind front' more)) :=
  (alike_readPatternGlob hfront hmore).of_common (alike_readPatternGlob hfront' hmore)
    fun _ _ _ => Fits.agree

/-! ### The ending `/**` -/

/-- No escaped text ends in a star. -/
lemma escape_ne_append_star (text front : List Char) : escape text ≠ front ++ ['*'] := by
  intro heq
  induction text using List.reverseRecOn with
  | nil => exact absurd heq.symm (List.append_ne_nil_of_right_ne_nil _ (List.cons_ne_nil _ _))
  | append_singleton text c ih =>
    have hlast := congrArg List.getLast? heq
    rw [Glob.escape_append, List.getLast?_concat, List.getLast?_append] at hlast
    by_cases hc : Glob.isEscaped c = true
    · simp [escape, hc] at hlast
    · simp [escape, hc] at hlast
      rw [hlast] at hc
      exact hc rfl

lemma isBehind_of_append {inner ending : List Char} (h : IsBehind (inner ++ ending)) :
    IsBehind inner := by
  cases inner with
  | nil => exact Or.inl rfl
  | cons c inner =>
    rcases h with h | ⟨rest, h⟩
    · exact nomatch h
    · exact Or.inr ⟨inner, by rw [(List.cons.inj h).1]⟩

/-- **The ending `/**` stands behind the front.** -/
lemma without?_subtreeEnding_escape (text : List Char) {more : List Char} (hmore : IsBehind more) :
    Text.without? Glob.subtreeEnding (escape text ++ more) =
      (Text.without? Glob.subtreeEnding more).map (escape text ++ ·) := by
  refine Option.ext fun front => ?_
  simp only [Option.map_eq_some_iff, Text.without?_eq_some_iff]
  constructor
  · intro heq
    rcases List.append_eq_append_iff.mp heq with ⟨inner, rfl, hsplit⟩ | ⟨inner, hsplit, hending⟩
    · exact ⟨inner, hsplit, rfl⟩
    -- the ending begins in the escaped text, and `more` is what remains of it
    · obtain rfl : inner = [] := by
        rcases hmore with rfl | ⟨rest, rfl⟩
        · obtain rfl : inner = Glob.subtreeEnding := by rw [hending, List.append_nil]
          have hstar : escape text = front ++ ['/', '*'] ++ ['*'] := by
            rw [hsplit, List.append_assoc]
            rfl
          exact absurd hstar (escape_ne_append_star text _)
        · rcases inner with _ | ⟨a, _ | ⟨b, _ | ⟨c, inner⟩⟩⟩
          · rfl
          all_goals exact absurd hending (by simp [Glob.subtreeEnding])
      exact ⟨[], hending.symm, by rw [hsplit, List.append_nil, List.append_nil]⟩
  · rintro ⟨inner, rfl, rfl⟩
    exact (List.append_assoc _ _ _).symm

/-! ### Patterns behind a front -/

namespace InputPattern

/-- What stands behind the root in the glob of a pattern. -/
def behindRoot (p : InputPattern) : List Char :=
  if p.isLiteral then [] else '/' :: ("/".intercalate p.rest).toList

lemma isBehind_behindRoot (p : InputPattern) : IsBehind p.behindRoot := by
  unfold behindRoot
  split
  · exact Or.inl rfl
  · exact Or.inr ⟨_, rfl⟩

/-- **The glob of a pattern** begins with the names of its root. -/
lemma globText_eq_globBehind {p : InputPattern} {names : List String}
    (hnames : ∀ name ∈ names, IsName name) (hroot : p.root = below "/" names) :
    p.globText = globBehind names p.behindRoot := by
  have hescaped : p.escapedRoot = escape (spelled names) := by
    by_cases hnil : names = []
    · subst hnil
      have hslash : p.root = "/" := hroot
      unfold escapedRoot
      rw [hslash]
      decide
    · rw [escapedRoot_of_not_endsInSlash (hroot ▸ Path.not_endsInSlash_below "/" hnames hnil),
        hroot, Path.toList_below hnames hnil]
  apply String.toList_inj.mp
  unfold globText globBehind behindRoot
  rw [hescaped]
  split <;> simp

lemma directoryGlobText?_eq_map {p : InputPattern} {names : List String} {more : List Char}
    (hmore : IsBehind more) (h : p.globText = globBehind names more) :
    p.directoryGlobText? =
      (Text.without? Glob.subtreeEnding more).map (globBehind names) := by
  have hending : (['/', '*', '*'] : List Char) = Glob.subtreeEnding := rfl
  unfold directoryGlobText?
  rw [h, globBehind, String.toList_ofList, hending, without?_subtreeEnding_escape _ hmore,
    Option.map_map]
  rfl

end InputPattern

lemma alike_mapM_readPatternGlob {text? : Option (List Char)} {f f' : List Char → String}
    (h : ∀ text, text? = some text →
      Alike (Agree front front') (readPatternGlob (f text)) (readPatternGlob (f' text))) :
    Alike (Option.Rel (Agree front front')) ((text?.map f).mapM readPatternGlob)
      ((text?.map f').mapM readPatternGlob) := by
  cases text? with
  | none => exact .ok .none
  | some text =>
    rw [Option.map_some, Option.map_some, Option.mapM_some, Option.mapM_some]
    exact (h text rfl).bind fun _ _ hagree => .ok (.some hagree)

/-- **Patterns that differ only at their front agree.** -/
theorem globsAgree_of_globText (hfront : AreEscapable front) (hfront' : AreEscapable front')
    {more : List Char} (hmore : IsBehind more) {p p' : InputPattern}
    (h : p.globText = globBehind front more) (h' : p'.globText = globBehind front' more) :
    GlobsAgree front front' p p' where
  file := by
    rw [h, h']
    exact alike_readPatternGlob_behind hfront hfront' hmore
  directory := by
    rw [InputPattern.directoryGlobText?_eq_map hmore h,
      InputPattern.directoryGlobText?_eq_map hmore h']
    refine alike_mapM_readPatternGlob fun inner hinner => ?_
    rw [Text.without?_eq_some_iff.mp hinner] at hmore
    exact alike_readPatternGlob_behind hfront hfront' (isBehind_of_append hmore)

/-! ### Dependency directories -/

/-- The names of dependency directories. -/
def dependencyNames : List String := ["node_modules", "bower_components"]

/-- A pattern for what is in directories of a name. -/
def dependencyText (name : String) : String := "**/" ++ name ++ "/**"

/-- What stands behind the base directory in the glob for the directories of a name. -/
def dependencyEnding (name : String) : List Char := ['/', '*', '*', '/'] ++ name.toList

lemma filterMap_dependencyPatterns :
    dependencyPatterns.filterMap negated? = dependencyNames.map dependencyText := by
  decide

lemma isName_of_mem_dependencyNames {name : String} (h : name ∈ dependencyNames) : IsName name := by
  unfold IsName
  revert name
  decide

lemma readTokens_dependencyEnding {name : String} (h : name ∈ dependencyNames) :
    Glob.readTokens false (dependencyEnding name) = .ok (componentTokens name []) ∧
      Glob.readTokens false (dependencyEnding name ++ Glob.subtreeEnding) =
        .ok (componentTokens name [.componentsLast]) := by
  rcases List.mem_pair.mp h with rfl | rfl
  · exact ⟨rfl, rfl⟩
  · exact ⟨rfl, rfl⟩

lemma globText_dependencyText {base : List String} (hbase : ∀ name ∈ base, Path.IsProperName name)
    {name : String} (h : name ∈ dependencyNames) :
    (InputPattern.ofText (below "/" base) (dependencyText name)).globText =
      globBehind base (dependencyEnding name ++ Glob.subtreeEnding) := by
  have hsteps : Path.steps (dependencyText name) = [.name "**", .name name, .name "**"] := by
    revert name
    decide
  have hprefix : InputPattern.literalPrefix (dependencyText name) = Path.ofSteps [] := by
    rw [InputPattern.literalPrefix, hsteps]
    rfl
  have hrest : (InputPattern.ofText (below "/" base) (dependencyText name)).rest =
      ["**", name, "**"] := by
    rw [InputPattern.ofText, hsteps]
    rfl
  have hroot : (InputPattern.ofText (below "/" base) (dependencyText name)).root =
      below "/" base := by
    have hstays : Path.normalize (Path.join (below "/" base) (Path.ofSteps [])) =
        below "/" (base ++ []) := Path.normalize_join_ofSteps hbase (by simp) rfl
    rw [InputPattern.root_ofText, hprefix, hstays, List.append_nil]
  have hjoined : "/".intercalate ["**", name, "**"] = "**" ++ "/" ++ name ++ "/" ++ "**" := rfl
  rw [InputPattern.globText_eq_globBehind (Path.isName_of_isProperName hbase) hroot,
    InputPattern.behindRoot, InputPattern.isLiteral, hrest, hjoined]
  simp [dependencyEnding, Glob.subtreeEnding]

/-- The names are renamed without making or unmaking a dependency directory. -/
def KeepDependencies (names names' : List String) : Prop :=
  List.Forall₂ (fun name name' => ∀ dependency ∈ dependencyNames,
    name = dependency ↔ name' = dependency) names names'

namespace KeepDependencies

variable {names names' : List String}

lemma refl (names : List String) : KeepDependencies names names :=
  List.forall₂_same.mpr fun _ _ _ _ => Iff.rfl

lemma append (h : KeepDependencies names names') (more : List String) :
    KeepDependencies (names ++ more) (names' ++ more) :=
  List.rel_append h (refl more)

lemma mem_dropLast_iff (h : KeepDependencies names names') {dependency : String}
    (hdependency : dependency ∈ dependencyNames) :
    dependency ∈ names.dropLast ↔ dependency ∈ names'.dropLast := by
  induction h with
  | nil => exact Iff.rfl
  | cons hfirst hrest ih =>
    cases hrest with
    | nil => exact Iff.rfl
    | cons hsecond hrest =>
      rw [List.dropLast_cons_cons, List.dropLast_cons_cons, List.mem_cons, List.mem_cons, ih,
        eq_comm, hfirst dependency hdependency, eq_comm]

lemma getLast?_eq_some_iff (h : KeepDependencies names names') {dependency : String}
    (hdependency : dependency ∈ dependencyNames) :
    names.getLast? = some dependency ↔ names'.getLast? = some dependency := by
  induction h with
  | nil => exact Iff.rfl
  | cons hfirst hrest ih =>
    cases hrest with
    | nil =>
      rw [List.getLast?_singleton, List.getLast?_singleton, Option.some.injEq, Option.some.injEq]
      exact hfirst dependency hdependency
    | cons hsecond hrest => rwa [List.getLast?_cons_cons, List.getLast?_cons_cons]

end KeepDependencies

section

variable {base base' inner inner' : List String}

/-- Reading globs that ask for the same components, which are there below both fronts. -/
lemma alike_readPatternGlob_append (hbase : AreEscapable base) (hbase' : AreEscapable base')
    (hinner : ∀ name ∈ inner, IsName name) (hinner' : ∀ name ∈ inner', IsName name)
    {more : List Char} (hmore : IsBehind more) {tokens : List Glob.Token}
    (htokens : Glob.readTokens false more = .ok tokens)
    (hsame : ∀ names, (∀ name ∈ names, IsName name) →
      (TokensDescribe tokens (spelledBytes (inner ++ names)) ↔
        TokensDescribe tokens (spelledBytes (inner' ++ names)))) :
    Alike (Agree (base ++ inner) (base' ++ inner')) (readPatternGlob (globBehind base more))
      (readPatternGlob (globBehind base' more)) := by
  have hread := alike_readPatternGlob hbase hmore
  have hread' := alike_readPatternGlob hbase' hmore
  rw [htokens] at hread hread'
  obtain ⟨glob, hglob, hfits⟩ := hread.exists_of_ok
  obtain ⟨glob', hglob', hfits'⟩ := hread'.exists_of_ok
  rw [hglob, hglob']
  refine .ok fun names hnames hne hne' => ?_
  have hall := List.forall_mem_append.mpr ⟨hinner, hnames⟩
  have hall' := List.forall_mem_append.mpr ⟨hinner', hnames⟩
  rw [List.append_assoc] at hne hne' ⊢
  rw [List.append_assoc, Bool.eq_iff_iff, hfits _ hall hne, hfits' _ hall' hne', hsame names hnames]

/-- **The globs for dependency directories agree** below directories that are renamed without making
or unmaking one. -/
theorem globsAgree_dependency (hbase : ∀ name ∈ base, Path.IsProperName name)
    (hbase' : ∀ name ∈ base', Path.IsProperName name) (hescapable : AreEscapable base)
    (hescapable' : AreEscapable base') (hinner : ∀ name ∈ inner, IsName name)
    (hinner' : ∀ name ∈ inner', IsName name) (hkeep : KeepDependencies inner inner') {name : String}
    (h : name ∈ dependencyNames) :
    GlobsAgree (base ++ inner) (base' ++ inner')
      (InputPattern.ofText (below "/" base) (dependencyText name))
      (InputPattern.ofText (below "/" base') (dependencyText name)) := by
  obtain ⟨hdirectory, hfile⟩ := readTokens_dependencyEnding h
  have hname := isName_of_mem_dependencyNames h
  have hglob := globText_dependencyText hbase h
  have hglob' := globText_dependencyText hbase' h
  have hbehind : IsBehind (dependencyEnding name ++ Glob.subtreeEnding) := Or.inr ⟨_, rfl⟩
  refine ⟨?_, ?_⟩
  · rw [hglob, hglob']
    refine alike_readPatternGlob_append hescapable hescapable' hinner hinner' hbehind hfile ?_
    intro names hnames
    have hall := List.forall_mem_append.mpr ⟨hinner, hnames⟩
    have hall' := List.forall_mem_append.mpr ⟨hinner', hnames⟩
    rw [Glob.tokensDescribe_around_iff hall hname, Glob.tokensDescribe_around_iff hall' hname]
    exact (hkeep.append names).mem_dropLast_iff h
  -- The glob for directories has lost its `/**`, so it is about the last component.
  · rw [InputPattern.directoryGlobText?_eq_map hbehind hglob,
      InputPattern.directoryGlobText?_eq_map hbehind hglob', Text.without?_eq_some_iff.mpr rfl]
    refine alike_mapM_readPatternGlob fun more hmore => ?_
    obtain rfl := Option.some.inj hmore
    refine alike_readPatternGlob_append hescapable hescapable' hinner hinner' (Or.inr ⟨_, rfl⟩)
      hdirectory ?_
    intro names hnames
    have hall := List.forall_mem_append.mpr ⟨hinner, hnames⟩
    have hall' := List.forall_mem_append.mpr ⟨hinner', hnames⟩
    rw [Glob.tokensDescribe_last_iff hall hname, Glob.tokensDescribe_last_iff hall' hname]
    exact (hkeep.append names).getLast?_eq_some_iff h

end

end SheetLint
