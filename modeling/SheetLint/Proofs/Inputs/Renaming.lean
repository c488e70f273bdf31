import SheetLint.Proofs.Inputs.Moved

/-!
# Patterns with names at their front

A pattern takes its steps literally up to the first one with glob characters.  When these steps
begin with names and do not leave the directory there, the names are at the front of the root of the
pattern, and renaming them in its text moves the root and leaves the rest alone:
`AreRenamed.isMoved`.

A text may go up and down again behind the names, as `a/b/../*.css` does, and may begin with a `.`;
so renaming is said of the steps that are read from it, `Begins`, and not of its characters.  What
the steps behind the names must not do is to leave the directory to which the names lead,
`StayInside`: in `a/../b` the name at the front would not be part of the root.

Names that are exchanged have no characters of globs, and no backslashes, which are left as they are
in the glob of a pattern.  A pattern is for files or excludes them, with a `!` at its front, and
renaming does not change which.
-/

namespace SheetLint

open SheetLint.Path (below IsProperName isAbsolute)

/-! ### Steps of patterns -/

/-- A pattern takes the step literally. -/
def isPlainStep (step : Path.Step) : Bool := !InputPattern.hasGlobCharacters step.text

/-- The steps of a pattern that are taken literally stay inside the directory in which they
begin. -/
def StayInside (tail : List Path.Step) : Prop :=
  ∃ inner, Path.leadsTo? [] (tail.takeWhile isPlainStep) = some inner

/-- **A name without characters of globs.**  A backslash is one, although patterns do not count it
among them. -/
structure IsPlainName (name : String) : Prop where
  isProperName : IsProperName name
  isPlain : InputPattern.hasGlobCharacters name = false
  backslash : '\\' ∉ name.toList

lemma areEscapable_of_isPlainName {names : List String} (h : ∀ name ∈ names, IsPlainName name) :
    AreEscapable names := by
  intro name hname
  obtain ⟨hproper, -, hbackslash⟩ := h name hname
  exact ⟨hproper.isName, fun c hc heq => hbackslash (heq ▸ hc)⟩

/-- The text is a relative path that begins with names and goes on with steps. -/
structure Begins (text : String) (names : List String) (tail : List Path.Step) : Prop where
  isRelative : isAbsolute text = false
  innerSteps : Path.innerSteps text.toList = names.map .name ++ tail

namespace Begins

variable {text : String} {names : List String} {tail : List Path.Step}

/-- The steps of the text up to the first one with glob characters. -/
lemma exists_takeWhile_eq (h : Begins text names tail) (hnames : ∀ name ∈ names, IsPlainName name) :
    ∃ lead, (lead = [] ∨ lead = [.here]) ∧
      (Path.steps text).takeWhile isPlainStep =
        lead ++ (names.map .name ++ tail.takeWhile isPlainStep) ∧
      (Path.steps text).dropWhile isPlainStep = tail.dropWhile isPlainStep := by
  obtain ⟨lead, hlead, hsteps⟩ := Path.exists_steps_eq h.isRelative
  have hplain : ∀ step ∈ lead ++ names.map Path.Step.name, isPlainStep step = true := by
    intro step hstep
    rcases List.mem_append.mp hstep with hmem | hmem
    · rcases hlead with rfl | rfl
      · exact nomatch hmem
      · obtain rfl := List.mem_singleton.mp hmem
        decide
    · obtain ⟨name, hname, rfl⟩ := List.mem_map.mp hmem
      rw [isPlainStep, Path.Step.text, (hnames name hname).isPlain]
      rfl
  refine ⟨lead, hlead, ?_, ?_⟩
  · rw [hsteps, h.innerSteps, ← List.append_assoc, List.takeWhile_append_of_pos hplain,
      List.append_assoc]
  · rw [hsteps, h.innerSteps, ← List.append_assoc, List.dropWhile_append_of_pos hplain]

/-- Without a `.` at their front these are the names and the first of the further steps. -/
lemma filter_takeWhile_eq (h : Begins text names tail)
    (hnames : ∀ name ∈ names, IsPlainName name) :
    ((Path.steps text).takeWhile isPlainStep).filter (· ≠ .here) =
      names.map .name ++ tail.takeWhile isPlainStep := by
  obtain ⟨lead, hlead, htake, -⟩ := h.exists_takeWhile_eq hnames
  have hkept : (names.map Path.Step.name ++ tail.takeWhile isPlainStep).filter (· ≠ .here) =
      names.map .name ++ tail.takeWhile isPlainStep := by
    refine List.filter_eq_self.mpr fun step hstep => ?_
    have hmem : step ∈ Path.innerSteps text.toList := by
      rw [h.innerSteps]
      refine List.mem_append.mpr ((List.mem_append.mp hstep).imp_right fun htail => ?_)
      exact List.takeWhile_subset _ htail
    rcases Path.mem_innerSteps_isProperName hmem with rfl | ⟨name, rfl, -⟩ <;> rfl
  rw [htake, List.filter_append, hkept]
  rcases hlead with rfl | rfl <;> rfl

/-- **The root and the rest of a pattern** that begins with names. -/
lemma ofText_eq (h : Begins text names tail) (hnames : ∀ name ∈ names, IsPlainName name)
    {inner : List String} (hinner : Path.leadsTo? [] (tail.takeWhile isPlainStep) = some inner)
    {base : List String} (hbase : ∀ name ∈ base, IsProperName name) :
    InputPattern.ofText (below "/" base) text =
      ⟨below "/" (base ++ names ++ inner), (tail.dropWhile isPlainStep).map Path.Step.text⟩ := by
  obtain ⟨-, -, -, hdrop⟩ := h.exists_takeWhile_eq hnames
  have hsteps : ∀ step ∈ (Path.steps text).takeWhile isPlainStep, step.IsInner := fun step hstep =>
    Path.isInner_of_mem_steps h.isRelative (List.takeWhile_subset _ hstep)
  have hleads : Path.leadsTo? [] (((Path.steps text).takeWhile isPlainStep).filter (· ≠ .here)) =
      some (names ++ inner) := by
    rw [h.filter_takeWhile_eq hnames, Path.leadsTo?_map_name]
    simpa using Path.leadsTo?_append hinner names.reverse
  have hroot := Path.normalize_join_ofSteps hbase hsteps hleads
  rw [← List.append_assoc] at hroot
  rw [← hroot, ← hdrop]
  rfl

lemma isProperName_of_leadsTo? (h : Begins text names tail) {inner : List String}
    (hinner : Path.leadsTo? [] (tail.takeWhile isPlainStep) = some inner) :
    ∀ name ∈ inner, IsProperName name := by
  intro name hname
  have htail := (Path.mem_of_leadsTo? hinner hname).resolve_left List.not_mem_nil
  have hmem : .name name ∈ Path.innerSteps text.toList := by
    rw [h.innerSteps]
    exact List.mem_append_right _ (List.takeWhile_subset _ htail)
  rcases Path.mem_innerSteps_isProperName hmem with hup | ⟨other, heq, hproper⟩
  · exact nomatch hup
  · rwa [Path.Step.name.inj heq]

end Begins

/-! ### Renamed patterns -/

section

variable {names names' : List String}

/-- The texts are the same but for the names at their front. -/
def AreRenamed (names names' : List String) (text text' : String) : Prop :=
  ∃ tail, StayInside tail ∧ Begins text names tail ∧ Begins text' names' tail

/-- **A pattern with its front renamed.**  Both texts are patterns for files, or both exclude
files. -/
inductive IsRenamedPattern (names names' : List String) : String → String → Prop where
  | named {text text' : String} (h : negated? text = none) (h' : negated? text' = none)
    (hrenamed : AreRenamed names names' text text') : IsRenamedPattern names names' text text'
  | excluded {text text' inner inner' : String} (h : negated? text = some inner)
    (h' : negated? text' = some inner') (hrenamed : AreRenamed names names' inner inner') :
    IsRenamedPattern names names' text text'

lemma AreRenamed.isMoved {text text' : String} (h : AreRenamed names names' text text')
    (hnames : ∀ name ∈ names, IsPlainName name) (hnames' : ∀ name ∈ names', IsPlainName name)
    {base base' : List String} (hbase : ∀ name ∈ base, IsProperName name)
    (hbase' : ∀ name ∈ base', IsProperName name) :
    IsMoved (base ++ names) (base' ++ names') (InputPattern.ofText (below "/" base) text)
      (InputPattern.ofText (below "/" base') text') := by
  obtain ⟨tail, ⟨inner, hinner⟩, hbegins, hbegins'⟩ := h
  rw [hbegins.ofText_eq hnames hinner hbase, hbegins'.ofText_eq hnames' hinner hbase']
  exact ⟨rfl, inner, hbegins.isProperName_of_leadsTo? hinner, rfl, rfl⟩

lemma forall₂_filterMap_negated? {patterns patterns' : List String}
    (h : List.Forall₂ (IsRenamedPattern names names') patterns patterns') :
    List.Forall₂ (AreRenamed names names') (patterns.filterMap negated?)
      (patterns'.filterMap negated?) := by
  induction h with
  | nil => exact .nil
  | cons hfirst _ ih =>
    cases hfirst with
    | named h h' => rwa [List.filterMap_cons_none h, List.filterMap_cons_none h']
    | excluded h h' hrenamed =>
      rw [List.filterMap_cons_some h, List.filterMap_cons_some h']
      exact .cons hrenamed ih

lemma forall₂_filter_named {patterns patterns' : List String}
    (h : List.Forall₂ (IsRenamedPattern names names') patterns patterns') :
    List.Forall₂ (AreRenamed names names') (patterns.filter fun text => (negated? text).isNone)
      (patterns'.filter fun text => (negated? text).isNone) := by
  induction h with
  | nil => exact .nil
  | cons hfirst _ ih =>
    cases hfirst with
    | named h h' hrenamed =>
      rw [List.filter_cons_of_pos (by simp [h]), List.filter_cons_of_pos (by simp [h'])]
      exact .cons hrenamed ih
    | excluded h h' =>
      rwa [List.filter_cons_of_neg (by simp [h]), List.filter_cons_of_neg (by simp [h'])]

end

end SheetLint
