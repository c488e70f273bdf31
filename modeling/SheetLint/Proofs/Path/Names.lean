import Mathlib.Tactic.Lemma
import SheetLint.Path
import SheetLint.Proofs.Glob.Bytes

/-!
# Paths made of names

An absolute path without `.` and `..` is the root directory followed by names: `below "/" names`.
Joining names keeps such a path free of a slash at its end, so that everything below it is spelled
by it, a slash and more (`bytes_below`).  This is what lets a glob that begins with an escaped path
be compared with the paths below that path.

A name is a text without slashes that is not empty, `IsName`; `.` and `..` are names here as far as
spelling goes, and are excluded only where steps are read from a spelling.

Carrying out `.` and `..` turns every absolute path into one of this form, and the names are among
the pieces of the path (`exists_normalize_eq_below`).
-/

namespace SheetLint.Path

/-- The text can be a name in a directory. -/
def IsName (name : String) : Prop := name ≠ "" ∧ '/' ∉ name.toList

/-- The path to which names lead from `base`. -/
def below (base : String) (names : List String) : String := names.foldl join base

/-- The path is empty or spelled with a slash at its end. -/
def EndsInSlash (path : String) : Prop := path = "" ∨ path.toList.getLast? = some '/'

lemma below_cons (base name : String) (names : List String) :
    below base (name :: names) = below (join base name) names := rfl

lemma IsName.not_isAbsolute {name : String} (h : IsName name) : isAbsolute name = false := by
  unfold isAbsolute
  cases hname : name.toList with
  | nil => rfl
  | cons c text =>
    have hc : c ≠ '/' := by
      rintro rfl
      exact h.2 (by simp [hname])
    simp [hc]

lemma join_of_endsInSlash {base path : String} (hbase : EndsInSlash base)
    (h : isAbsolute path = false) : join base path = base ++ path := by
  have hcond : base.isEmpty = true ∨ base.toList.getLast? = some '/' :=
    hbase.imp_left fun hempty => by rw [hempty]; rfl
  rw [join, if_neg (by simp [h]), if_pos hcond]

lemma join_of_not_endsInSlash {base path : String} (hbase : ¬ EndsInSlash base)
    (h : isAbsolute path = false) : join base path = base ++ "/" ++ path := by
  have hcond : ¬ (base.isEmpty = true ∨ base.toList.getLast? = some '/') := by
    intro hcond
    exact hbase (hcond.imp_left String.isEmpty_iff.mp)
  rw [join, if_neg (by simp [h]), if_neg hcond]

lemma not_endsInSlash_join (base : String) {name : String} (h : IsName name) :
    ¬ EndsInSlash (join base name) := by
  have hfront : ∃ front, join base name = front ++ name := by
    by_cases hbase : EndsInSlash base
    · exact ⟨base, join_of_endsInSlash hbase h.not_isAbsolute⟩
    · exact ⟨base ++ "/", join_of_not_endsInSlash hbase h.not_isAbsolute⟩
  obtain ⟨front, hjoin⟩ := hfront
  have hname : name.toList ≠ [] := fun hnil => h.1 (String.toList_eq_nil_iff.mp hnil)
  rintro (hempty | hlast)
  · rw [hjoin] at hempty
    have happend := congrArg String.toList hempty
    rw [String.toList_append] at happend
    exact hname (List.append_eq_nil_iff.mp happend).2
  · rw [hjoin, String.toList_append, List.getLast?_append, List.getLast?_eq_some_getLast hname,
      Option.some_or] at hlast
    exact h.2 (Option.some.inj hlast ▸ List.getLast_mem hname)

/-- **Everything below a path.**  It is spelled by the path, a slash and more. -/
lemma bytes_below {base : String} (hbase : ¬ EndsInSlash base) {names : List String}
    (hnames : ∀ name ∈ names, IsName name) (hne : names ≠ []) :
    ∃ lower, Glob.bytes (below base names) = Glob.bytes base ++ 47 :: lower := by
  induction names generalizing base with
  | nil => exact absurd rfl hne
  | cons name names ih =>
    have hname : IsName name := hnames name (by simp)
    have hjoin : Glob.bytes (join base name) = Glob.bytes base ++ 47 :: Glob.bytes name := by
      rw [join_of_not_endsInSlash hbase hname.not_isAbsolute, Glob.bytes_append, Glob.bytes_append,
        Glob.bytes_slash, List.append_assoc]
      rfl
    rw [below_cons]
    cases names with
    | nil => exact ⟨Glob.bytes name, hjoin⟩
    | cons second names =>
      obtain ⟨lower, hlower⟩ := ih (not_endsInSlash_join base hname)
        (fun n hn => hnames n (by simp [hn])) (List.cons_ne_nil _ _)
      rw [hlower, hjoin, List.append_assoc]
      exact ⟨Glob.bytes name ++ 47 :: lower, rfl⟩

lemma not_endsInSlash_below (base : String) {names : List String}
    (hnames : ∀ name ∈ names, IsName name) (hne : names ≠ []) :
    ¬ EndsInSlash (below base names) := by
  induction names generalizing base with
  | nil => exact absurd rfl hne
  | cons name names ih =>
    rw [below_cons]
    cases names with
    | nil => exact not_endsInSlash_join base (hnames name (by simp))
    | cons second names =>
      exact ih (join base name) (fun n hn => hnames n (by simp [hn])) (List.cons_ne_nil _ _)

/-! ### Absolute paths -/

lemma isAbsolute_append {base : String} (h : isAbsolute base = true) (text : String) :
    isAbsolute (base ++ text) = true := by
  unfold isAbsolute at h ⊢
  rw [String.toList_append]
  cases hbase : base.toList with
  | nil => simp [hbase] at h
  | cons c chars => simpa [hbase] using h

lemma isAbsolute_join {base : String} (h : isAbsolute base = true) (path : String) :
    isAbsolute (join base path) = true := by
  unfold join
  split
  · assumption
  · split
    · exact isAbsolute_append h path
    · exact isAbsolute_append (isAbsolute_append h "/") path

lemma isAbsolute_below {base : String} (h : isAbsolute base = true) (names : List String) :
    isAbsolute (below base names) = true := by
  induction names generalizing base with
  | nil => exact h
  | cons name names ih => exact ih (isAbsolute_join h name)

lemma exists_toList_eq_cons {path : String} (h : isAbsolute path = true) :
    ∃ inner, path.toList = '/' :: inner := by
  unfold isAbsolute at h
  cases hpath : path.toList with
  | nil => simp [hpath] at h
  | cons c text =>
    obtain rfl : c = '/' := by simpa [hpath] using h
    exact ⟨text, rfl⟩

lemma bytes_of_isAbsolute {path : String} (h : isAbsolute path = true) :
    ∃ inner, Glob.bytes path = 47 :: inner := by
  obtain ⟨text, htext⟩ := exists_toList_eq_cons h
  exact ⟨text.flatMap String.utf8EncodeChar, by rw [Glob.bytes_eq_flatMap, htext]; rfl⟩

/-! ### Carrying out `.` and `..` -/

lemma mem_pieces {separator : Char} {text piece : List Char}
    (h : piece ∈ Text.pieces separator text) :
    separator ∉ piece ∧ ∀ c ∈ piece, c ∈ text := by
  fun_induction Text.pieces separator text generalizing piece with
  | case1 =>
    obtain rfl : piece = [] := by simpa using h
    exact ⟨by simp, by simp⟩
  | case2 rest ih =>
    rcases List.mem_cons.mp h with rfl | h
    · exact ⟨by simp, by simp⟩
    · obtain ⟨hseparator, hchars⟩ := ih h
      exact ⟨hseparator, fun c hc => List.mem_cons_of_mem _ (hchars c hc)⟩
  | case3 c rest hc hpieces =>
    obtain rfl : piece = [c] := by simpa using h
    exact ⟨by simpa using Ne.symm hc, by simp⟩
  -- the first piece grows by the character, the others are those of the rest
  | case4 c rest hc front more hpieces ih =>
    rcases List.mem_cons.mp h with rfl | h
    · obtain ⟨hseparator, hchars⟩ := ih (by rw [hpieces]; exact List.mem_cons_self)
      refine ⟨?_, ?_⟩
      · rw [List.mem_cons, not_or]
        exact ⟨Ne.symm hc, hseparator⟩
      · intro d hd
        rcases List.mem_cons.mp hd with rfl | hd
        · exact List.mem_cons_self
        · exact List.mem_cons_of_mem _ (hchars d hd)
    · obtain ⟨hseparator, hchars⟩ := ih (by rw [hpieces]; exact List.mem_cons_of_mem _ h)
      exact ⟨hseparator, fun d hd => List.mem_cons_of_mem _ (hchars d hd)⟩

/-- The text is a name whose characters are among those of `text`. -/
def IsNameIn (text : List Char) (name : String) : Prop :=
  IsName name ∧ ∀ c ∈ name.toList, c ∈ text

lemma mem_innerSteps {text : List Char} {step : Step} (h : step ∈ innerSteps text) :
    step = .up ∨ ∃ name, step = .name name ∧ IsNameIn text name := by
  obtain ⟨piece, hpiece, hstep⟩ := List.mem_filterMap.mp h
  obtain ⟨hslash, hchars⟩ := mem_pieces hpiece
  split at hstep
  · exact nomatch hstep
  · next hne =>
    split at hstep
    · exact Or.inl (Option.some.inj hstep).symm
    · refine Or.inr ⟨String.ofList piece, (Option.some.inj hstep).symm, ⟨?_, ?_⟩, ?_⟩
      · intro hempty
        have hnil := congrArg String.toList hempty
        rw [String.toList_ofList] at hnil
        exact hne (Or.inl hnil)
      · rwa [String.toList_ofList]
      · rwa [String.toList_ofList]

lemma exists_foldl_visit {P : String → Prop} (steps : List Step)
    (hsteps : ∀ step ∈ steps, step = .up ∨ ∃ name, step = .name name ∧ P name)
    {names : List String} (hnames : ∀ name ∈ names, P name) :
    ∃ visited : List String, steps.foldl normalSteps.visit (names.map .name ++ [.root]) =
        visited.map .name ++ [.root] ∧ ∀ name ∈ visited, P name := by
  induction steps generalizing names with
  | nil => exact ⟨names, rfl, hnames⟩
  | cons step steps ih =>
    have hrest := fun s hs => hsteps s (List.mem_cons_of_mem step hs)
    rcases hsteps step List.mem_cons_self with rfl | ⟨name, rfl, hname⟩
    · cases names with
      | nil => exact ih hrest hnames
      | cons name names =>
        have hup : normalSteps.visit ((name :: names).map .name ++ [.root]) .up =
            names.map .name ++ [.root] := by
          cases names <;> rfl
        rw [List.foldl_cons, hup]
        exact ih hrest fun n hn => hnames n (List.mem_cons_of_mem name hn)
    · exact ih hrest (List.forall_mem_cons.mpr ⟨hname, hnames⟩)

/-- The steps that are left of an absolute path, which are the root directory and names. -/
lemma exists_normalSteps_eq {path : String} (h : isAbsolute path = true) {P : String → Prop}
    (hnames : ∀ step ∈ innerSteps path.toList,
      step = .up ∨ ∃ name, step = .name name ∧ P name) :
    ∃ names : List String, (∀ name ∈ names, P name) ∧
      normalSteps (steps path) = .root :: names.map .name ∧ normalize path = below "/" names := by
  obtain ⟨visited, hvisited, hP⟩ :=
    exists_foldl_visit (innerSteps path.toList) hnames (List.forall_mem_nil P)
  have hsteps : normalSteps (steps path) = .root :: visited.reverse.map .name := by
    have hfold : (steps path).foldl normalSteps.visit [] = visited.map .name ++ [.root] := by
      rw [steps, if_pos h, ← hvisited]
      rfl
    rw [normalSteps, hfold, List.reverse_append, List.map_reverse]
    rfl
  refine ⟨visited.reverse, fun name hname => hP name (List.mem_reverse.mp hname), hsteps, ?_⟩
  have hroot : join "" Step.root.text = "/" := by decide
  rw [normalize, hsteps, ofSteps, List.foldl_cons, hroot, List.foldl_map]
  rfl

/-- **What `.` and `..` leave.**  Carrying them out in an absolute path leaves names below the
root directory. -/
lemma exists_normalize_eq_below {path : String} (h : isAbsolute path = true) :
    ∃ names, normalize path = below "/" names ∧ ∀ name ∈ names, IsNameIn path.toList name := by
  obtain ⟨names, hnames, -, hpath⟩ := exists_normalSteps_eq h fun _ => mem_innerSteps
  exact ⟨names, hpath, hnames⟩

end SheetLint.Path
