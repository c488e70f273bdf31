import SheetLint.Proofs.Path.Normal

/-!
# Paths inside a directory

Names are spelled behind each other, each one behind a slash, and the spelling tells the names
(`below_injective`).  So a path below a directory is the directory and what the names below it
spell.

Steps may go up and down again as long as they do not leave the directory in which they begin.
Where such steps lead is `leadsTo?`, which fails as soon as a `..` would leave.  Then `.` and `..`
can be carried out without knowing that directory: `normalize_join_ofSteps`.

The other way round, what is left of a path behind a base directory is read off its spelling:
`below?_below` says that the base is recognised, whatever the names are, and what remains.  Steps
such as `.` that stand first are dropped there, since the base's last slash swallows them.
-/

namespace SheetLint.Path

/-! ### Spelling names -/

/-- Names, each behind a slash. -/
def spelled (names : List String) : List Char := names.flatMap fun name => '/' :: name.toList

@[simp] lemma spelled_append (front back : List String) :
    spelled (front ++ back) = spelled front ++ spelled back :=
  List.flatMap_append

lemma below_append (base : String) (front back : List String) :
    below base (front ++ back) = below (below base front) back :=
  List.foldl_append

lemma toList_below {names : List String} (hnames : ∀ name ∈ names, IsName name)
    (hne : names ≠ []) : (below "/" names).toList = spelled names := by
  induction names using List.reverseRecOn with
  | nil => exact absurd rfl hne
  | append_singleton names name ih =>
    have hname : IsName name := hnames name (by simp)
    have hfront : ∀ n ∈ names, IsName n := fun n hn => hnames n (by simp [hn])
    have hbelow : below "/" (names ++ [name]) = join (below "/" names) name :=
      below_append "/" names [name]
    have hlast : spelled [name] = '/' :: name.toList := by simp [spelled]
    rw [hbelow, spelled_append, hlast]
    by_cases hnil : names = []
    · subst hnil
      have hroot : join (below "/" []) name = "/" ++ name :=
        join_of_endsInSlash (Or.inr (by decide)) hname.not_isAbsolute
      rw [hroot, String.toList_append]
      rfl
    · rw [toList_join_of_not_endsInSlash (not_endsInSlash_below "/" hfront hnil)
        hname.not_isAbsolute, ih hfront hnil]

lemma pieces_below {names : List String} (hnames : ∀ name ∈ names, IsName name)
    (hne : names ≠ []) :
    Text.pieces '/' (below "/" names).toList = [] :: names.map String.toList := by
  obtain ⟨front, last, rfl⟩ := (List.eq_nil_or_concat names).resolve_left hne
  rw [List.concat_eq_append] at hnames ⊢
  have hlast : IsName last := hnames last (by simp)
  have hbelow : below "/" (front ++ [last]) = join (below "/" front) last :=
    below_append "/" front [last]
  rw [hbelow, pieces_join_below (fun n hn => hnames n (by simp [hn])) hlast.not_isAbsolute,
    Text.pieces_of_not_mem hlast.2, List.map_append, List.cons_append]
  rfl

/-- **The spelling tells the names.** -/
lemma below_injective {a b : List String} (ha : ∀ name ∈ a, IsName name)
    (hb : ∀ name ∈ b, IsName name) (h : below "/" a = below "/" b) : a = b := by
  have hroot {names : List String} (hnames : ∀ name ∈ names, IsName name)
      (h : below "/" names = "/") : names = [] := by
    by_contra hne
    refine not_endsInSlash_below "/" hnames hne (Or.inr ?_)
    rw [h]
    decide
  by_cases hnil : a = []
  · rw [hnil] at h ⊢
    exact (hroot hb h.symm).symm
  by_cases hnil' : b = []
  · rw [hnil'] at h
    exact absurd (hroot ha h) hnil
  have hpieces := pieces_below ha hnil
  rw [h, pieces_below hb hnil'] at hpieces
  have htoList : Function.Injective String.toList := fun _ _ => String.toList_injective
  exact (List.map_injective_iff.mpr htoList (List.cons.inj hpieces).2).symm

/-! ### Steps inside a directory -/

/-- Where steps lead that do not leave the directory in which they begin, as the names below it.
`visited` are the names that lead there so far, in reverse. -/
def leadsTo? : List String → List Step → Option (List String)
  | visited, [] => some visited.reverse
  | visited, .name name :: rest => leadsTo? (name :: visited) rest
  | _ :: visited, .up :: rest => leadsTo? visited rest
  | [], .up :: _ => none
  | visited, .here :: rest => leadsTo? visited rest
  | _, .root :: _ => none

/-- Carrying out steps that do not leave a directory leaves what is visited before it alone. -/
lemma foldl_visit_of_leadsTo? {visited : List String} {steps : List Step} {names : List String}
    (h : leadsTo? visited steps = some names) (under : List Step) :
    steps.foldl normalSteps.visit (visited.map .name ++ under) =
      names.reverse.map .name ++ under := by
  fun_induction leadsTo? visited steps with
  | case1 visited =>
    cases h
    rw [List.reverse_reverse]
    rfl
  | case2 visited name rest ih => exact ih h
  | case3 name visited rest ih =>
    have hup : normalSteps.visit ((name :: visited).map .name ++ under) .up =
        visited.map .name ++ under := rfl
    rw [List.foldl_cons, hup]
    exact ih h
  | case4 => exact nomatch h
  | case5 visited rest ih => exact ih h
  | case6 => exact nomatch h

/-- Steps that do not leave a directory do not leave a directory around it. -/
lemma leadsTo?_append {visited : List String} {steps : List Step} {names : List String}
    (h : leadsTo? visited steps = some names) (under : List String) :
    leadsTo? (visited ++ under) steps = some (under.reverse ++ names) := by
  fun_induction leadsTo? visited steps with
  | case1 visited =>
    cases h
    rw [leadsTo?, List.reverse_append]
  | case2 visited name rest ih => exact ih h
  | case3 name visited rest ih => exact ih h
  | case4 => exact nomatch h
  | case5 visited rest ih =>
    rw [← ih h]
    cases visited ++ under <;> rfl
  | case6 => exact nomatch h

lemma leadsTo?_map_name (visited names : List String) (steps : List Step) :
    leadsTo? visited (names.map .name ++ steps) = leadsTo? (names.reverse ++ visited) steps := by
  induction names generalizing visited with
  | nil => rfl
  | cons name names ih =>
    rw [List.map_cons, List.cons_append, leadsTo?, ih, List.reverse_cons, List.append_assoc]
    rfl

lemma mem_of_leadsTo? {visited : List String} {steps : List Step} {names : List String}
    (h : leadsTo? visited steps = some names) {name : String} (hname : name ∈ names) :
    name ∈ visited ∨ .name name ∈ steps := by
  fun_induction leadsTo? visited steps with
  | case1 visited =>
    cases h
    exact Or.inl (List.mem_reverse.mp hname)
  | case2 visited other rest ih =>
    rcases ih h with hvisited | hrest
    · rcases List.mem_cons.mp hvisited with rfl | hvisited
      · exact Or.inr List.mem_cons_self
      · exact Or.inl hvisited
    · exact Or.inr (List.mem_cons_of_mem _ hrest)
  | case3 other visited rest ih =>
    exact (ih h).imp (List.mem_cons_of_mem _) (List.mem_cons_of_mem _)
  | case4 => exact nomatch h
  | case5 visited rest ih => exact (ih h).imp_right (List.mem_cons_of_mem _)
  | case6 => exact nomatch h

/-- The step is one of a relative path. -/
def Step.IsInner (step : Step) : Prop :=
  step = .here ∨ step = .up ∨ ∃ name, step = .name name ∧ IsProperName name

namespace Step.IsInner

variable {step : Step}

lemma isName_text (h : step.IsInner) : IsName step.text := by
  rcases h with rfl | rfl | ⟨name, rfl, hname⟩
  · unfold IsName
    decide
  · unfold IsName
    decide
  · exact hname.isName

lemma innerSteps_text (h : step.IsInner) :
    innerSteps step.text.toList = if step = .here then [] else [step] := by
  rw [innerSteps_eq_map, Text.pieces_of_not_mem h.isName_text.2]
  rcases h with rfl | rfl | ⟨name, rfl, hname⟩
  · decide
  · decide
  · simp [Step.text, hname.isStep_toList, hname.stepOf_toList]

end Step.IsInner

/-- The steps of a relative path are those between its slashes, up to a `.` at its front. -/
lemma exists_steps_eq {path : String} (hpath : isAbsolute path = false) :
    ∃ lead, (lead = [] ∨ lead = [.here]) ∧ steps path = lead ++ innerSteps path.toList := by
  simp only [steps, hpath, Bool.false_eq_true, if_false]
  split
  · exact ⟨[.here], Or.inr rfl, rfl⟩
  · exact ⟨[], Or.inl rfl, rfl⟩

lemma isInner_of_mem_steps {path : String} (hpath : isAbsolute path = false) {step : Step}
    (h : step ∈ steps path) : step.IsInner := by
  have hinner {step : Step} (h : step ∈ innerSteps path.toList) : step.IsInner :=
    Or.inr (mem_innerSteps_isProperName h)
  obtain ⟨lead, rfl | rfl, hsteps⟩ := exists_steps_eq hpath <;> rw [hsteps] at h
  · exact hinner h
  · rcases List.mem_cons.mp h with rfl | h
    · exact Or.inl rfl
    · exact hinner h

lemma innerSteps_append (front back : List Char) :
    innerSteps (front ++ '/' :: back) = innerSteps front ++ innerSteps back := by
  rw [innerSteps_eq_map, innerSteps_eq_map, innerSteps_eq_map, Text.pieces_append,
    List.filter_append, List.map_append]

/-- **What steps spell.**  It is a relative path with these steps. -/
lemma ofSteps_cases {path : List Step} (h : ∀ step ∈ path, step.IsInner) :
    isAbsolute (ofSteps path) = false ∧
      innerSteps (ofSteps path).toList = path.filter (· ≠ .here) ∧
      (path ≠ [] → ¬ EndsInSlash (ofSteps path)) := by
  induction path using List.reverseRecOn with
  | nil => exact ⟨by decide, by decide, fun hne => absurd rfl hne⟩
  | append_singleton path step ih =>
    obtain ⟨habsolute, hinner, hslash⟩ := ih fun s hs => h s (by simp [hs])
    have hstep := h step (by simp)
    have hname := hstep.isName_text
    have hjoin : ofSteps (path ++ [step]) = join (ofSteps path) step.text := by simp [ofSteps]
    have hlast : [step].filter (· ≠ .here) = if step = .here then [] else [step] := by
      by_cases hhere : step = .here <;> simp [hhere]
    rw [hjoin, List.filter_append, hlast, ← hstep.innerSteps_text]
    -- The first step is joined to nothing, so no slash stands before it; the others are joined to a
    -- text that is not empty and does not end in a slash.
    by_cases hnil : path = []
    · subst hnil
      have hfirst : join (ofSteps []) step.text = step.text := by
        have hempty : ofSteps [] = "" := rfl
        rw [hempty, join_of_endsInSlash (Or.inl rfl) hname.not_isAbsolute, String.empty_append]
      rw [hfirst]
      refine ⟨hname.not_isAbsolute, rfl, fun _ => ?_⟩
      rw [← hfirst]
      exact not_endsInSlash_join _ hname
    · have htext := toList_join_of_not_endsInSlash (hslash hnil) hname.not_isAbsolute
      refine ⟨?_, ?_, fun _ => not_endsInSlash_join _ hname⟩
      · unfold isAbsolute at habsolute ⊢
        rw [htext]
        cases hspelled : (ofSteps path).toList with
        | nil => exact absurd (Or.inl (String.toList_eq_nil_iff.mp hspelled)) (hslash hnil)
        | cons c text => simpa [hspelled] using habsolute
      · rw [htext, innerSteps_append, hinner]

/-- **Carrying out steps that do not leave a directory.** -/
theorem normalize_join_ofSteps {base : List String} (hbase : ∀ name ∈ base, IsProperName name)
    {path : List Step} (h : ∀ step ∈ path, step.IsInner) {names : List String}
    (hleads : leadsTo? [] (path.filter (· ≠ .here)) = some names) :
    normalize (join (below "/" base) (ofSteps path)) = below "/" (base ++ names) := by
  obtain ⟨habsolute, hinner, -⟩ := ofSteps_cases h
  have hvisited : (.root :: base.map .name : List Step).foldl normalSteps.visit [] =
      (base.map .name).reverse ++ [.root] := normalSteps_root_cons (by simp)
  have hnormal : normalSteps (steps (join (below "/" base) (ofSteps path))) =
      .root :: (base ++ names).map .name := by
    have hfold := foldl_visit_of_leadsTo? hleads ((base.map .name).reverse ++ [.root])
    rw [List.map_nil, List.nil_append] at hfold
    rw [steps_join (isAbsolute_below (by decide) base) habsolute, steps_below hbase, hinner,
      normalSteps, List.foldl_append, hvisited, hfold]
    simp
  have hroot : join "" Step.root.text = "/" := by decide
  rw [normalize, hnormal, ofSteps, List.foldl_cons, hroot, List.foldl_map]
  rfl

/-! ### What is below a base directory -/

lemma isStep_of_isProperName {names : List String} (h : ∀ name ∈ names, IsProperName name) :
    ∀ piece ∈ names.map String.toList, isStep piece = true := by
  intro piece hpiece
  obtain ⟨name, hname, rfl⟩ := List.mem_map.mp hpiece
  exact (h name hname).isStep_toList

lemma dropSteps_append {front : List (List Char)} (h : ∀ piece ∈ front, isStep piece = true)
    (back : List (List Char)) : dropSteps front.length (front ++ back) = back := by
  induction front with
  | nil => cases back <;> rfl
  | cons piece front ih =>
    obtain ⟨hpiece, hfront⟩ := List.forall_mem_cons.mp h
    rw [List.length_cons, List.cons_append, dropSteps, if_pos hpiece, ih hfront]

lemma trimPieces_append {front : List (List Char)} (h : ∀ piece ∈ front, isStep piece = true)
    (back : List (List Char)) : trimPieces (front ++ back) = front ++ trimPieces back := by
  have hfront : front.reverse.dropWhile (fun piece => !isStep piece) = front.reverse := by
    cases hreverse : front.reverse with
    | nil => rfl
    | cons last more =>
      have hlast : last ∈ front := List.mem_reverse.mp (hreverse ▸ List.mem_cons_self)
      exact List.dropWhile_cons_of_neg (by simp [h last hlast])
  unfold trimPieces
  rw [List.reverse_append, List.dropWhile_append]
  split
  · next hempty =>
    rw [hfront, List.isEmpty_iff.mp hempty]
    simp
  · rw [List.reverse_append, List.reverse_reverse]

lemma steps_prefix_below {base : String} (hbase : isAbsolute base = true) {names : List String}
    (hnames : ∀ name ∈ names, IsName name) : steps base <+: steps (below base names) := by
  induction names using List.reverseRecOn with
  | nil => exact List.prefix_refl _
  | append_singleton names name ih =>
    have hbelow : below base (names ++ [name]) = join (below base names) name :=
      below_append base names [name]
    rw [hbelow, steps_join (isAbsolute_below hbase names)
      (hnames name (by simp)).not_isAbsolute]
    exact (ih fun n hn => hnames n (by simp [hn])).trans (List.prefix_append _ _)

/-- **What is left of a path below a base directory** does not depend on the base directory. -/
theorem below?_below {base : List String} (hbase : ∀ name ∈ base, IsProperName name)
    {names : List String} (hnames : ∀ name ∈ names, IsName name) :
    below? (below "/" base) (below "/" (base ++ names)) =
      some (ofPieces ((trimPieces (names.map String.toList)).dropWhile fun p => !isStep p)) := by
  have hsteps : steps (below "/" base) = .root :: base.map .name := steps_below hbase
  have hbegins :
      (steps (below "/" base)).isPrefixOf (steps (below "/" (base ++ names))) = true := by
    rw [below_append, List.isPrefixOf_iff_prefix]
    exact steps_prefix_below (isAbsolute_below (by decide) base) hnames
  have hstep := isStep_of_isProperName hbase
  have hinner : trimPieces (Text.pieces '/' (below "/" (base ++ names)).toList).tail =
      base.map String.toList ++ trimPieces (names.map String.toList) := by
    by_cases hnil : base ++ names = []
    · obtain ⟨rfl, rfl⟩ := List.append_eq_nil_iff.mp hnil
      decide
    · have hall : ∀ name ∈ base ++ names, IsName name := by
        intro name hname
        rcases List.mem_append.mp hname with hmem | hmem
        · exact (hbase name hmem).isName
        · exact hnames name hmem
      rw [pieces_below hall hnil, List.tail_cons, List.map_append, trimPieces_append hstep]
  rw [hsteps] at hbegins
  unfold below?
  simp only [hbegins, Bool.not_true, Bool.false_eq_true, if_false, hinner, hsteps,
    List.isEmpty_cons, List.length_cons, List.length_map, Nat.add_sub_cancel]
  rw [← List.length_map (f := String.toList), dropSteps_append hstep]

end SheetLint.Path
