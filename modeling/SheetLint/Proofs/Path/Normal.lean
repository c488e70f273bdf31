import Mathlib.Algebra.GroupWithZero.Nat
import Mathlib.Algebra.Order.BigOperators.Group.List
import Mathlib.Algebra.Order.Group.Nat
import Mathlib.Data.List.Basic
import Mathlib.Data.List.Induction
import SheetLint.Proofs.Path.Names
import SheetLint.Proofs.Text.Pieces

/-!
# Carrying out `.` and `..`

The steps of a path behind a base are those of the base and those of the path, one after the other
(`steps_join`).  So carrying out `.` and `..` in the base first makes no difference to what the
whole comes to: `normalize_join_normalize`, and normalizing twice is normalizing once.

The way there goes through the pieces between slashes.  Joining adds a slash only where there is
none, so the pieces of a joined path are those of both parts, up to an empty piece, and empty pieces
name no step.

A name that a step can have once `.` and `..` are carried out is an `IsProperName`.  The steps of a
path spelled from proper names are these names (`steps_below`), which is why a normal path keeps its
steps when it is read again.

A base without `..` keeps its steps when it is normalized, and its spelling becomes shorter
(`utf8ByteSize_join_normalize_le`).  Its characters stay the same up to slashes and dots.  So the
system, which refuses a path for its length or for a character, refuses nothing that it did not
refuse before.
-/

namespace SheetLint.Path

/-! ### Pieces -/

/-- The step that a piece names. -/
def stepOf (piece : List Char) : Step :=
  if piece = ['.', '.'] then .up else .name (String.ofList piece)

lemma innerSteps_eq_map (text : List Char) :
    innerSteps text = ((Text.pieces '/' text).filter isStep).map stepOf := by
  unfold innerSteps
  rw [← List.filterMap_eq_map, List.filterMap_filter]
  congr 1
  funext piece
  by_cases hstep : piece = [] ∨ piece = ['.']
  · rcases hstep with rfl | rfl <;> rfl
  · have hisStep : isStep piece = true := by simpa [isStep] using hstep
    rw [if_neg hstep, if_pos hisStep, Function.comp, stepOf]
    split <;> rfl

lemma exists_pieces_eq_cons {text : List Char} (h : text = [] ∨ text.head? = some '/') :
    ∃ rest, Text.pieces '/' text = [] :: rest := by
  cases text with
  | nil => exact ⟨[], rfl⟩
  | cons c text =>
    obtain rfl : c = '/' := by simpa using h
    exact ⟨Text.pieces '/' text, by rw [Text.pieces, if_pos rfl]⟩

lemma filter_isStep_cons_nil (pieces : List (List Char)) :
    ([] :: pieces).filter isStep = pieces.filter isStep := rfl

lemma toList_join_of_not_endsInSlash {base path : String} (hbase : ¬ EndsInSlash base)
    (hpath : isAbsolute path = false) :
    (join base path).toList = base.toList ++ '/' :: path.toList := by
  rw [join_of_not_endsInSlash hbase hpath, String.toList_append, String.toList_append,
    List.append_assoc]
  rfl

/-- **The pieces behind a base.**  In front of those of the path stand those of the base, up to an
empty one that a slash at the end of the base leaves. -/
lemma exists_pieces_join {base path : String} (hbase : isAbsolute base = true)
    (hpath : isAbsolute path = false) :
    ∃ front, Text.pieces '/' (join base path).toList = [] :: front ++ Text.pieces '/' path.toList ∧
      front.filter isStep = (Text.pieces '/' base.toList).filter isStep := by
  have hhead : base.toList.head? = some '/' := by simpa [isAbsolute] using hbase
  have hne : base ≠ "" := by
    rintro rfl
    exact nomatch hhead
  by_cases hends : EndsInSlash base
  · obtain ⟨front, hfront⟩ := List.getLast?_eq_some_iff.mp (hends.resolve_left hne)
    have hjoin : (join base path).toList = front ++ '/' :: path.toList := by
      rw [join_of_endsInSlash hends hpath, String.toList_append, hfront, List.append_assoc]
      rfl
    obtain ⟨rest, hrest⟩ : ∃ rest, Text.pieces '/' front = [] :: rest := by
      refine exists_pieces_eq_cons ?_
      cases front with
      | nil => exact Or.inl rfl
      | cons c front => exact Or.inr (by simpa [hfront] using hhead)
    refine ⟨rest, by rw [hjoin, Text.pieces_append, hrest], ?_⟩
    rw [hfront, Text.pieces_append, hrest]
    simp [isStep, Text.pieces]
  · obtain ⟨rest, hrest⟩ := exists_pieces_eq_cons (Or.inr hhead)
    refine ⟨rest, ?_, by rw [hrest, filter_isStep_cons_nil]⟩
    rw [toList_join_of_not_endsInSlash hends hpath, Text.pieces_append, hrest]

/-- **The steps behind a base.** -/
lemma steps_join {base path : String} (hbase : isAbsolute base = true)
    (hpath : isAbsolute path = false) :
    steps (join base path) = steps base ++ innerSteps path.toList := by
  obtain ⟨front, hpieces, hfront⟩ := exists_pieces_join hbase hpath
  simp only [steps]
  rw [if_pos hbase, if_pos (isAbsolute_join hbase path), List.cons_append, innerSteps_eq_map,
    innerSteps_eq_map, innerSteps_eq_map, hpieces, ← hfront, List.cons_append,
    filter_isStep_cons_nil, List.filter_append, List.map_append]

/-! ### Normal paths -/

/-- The text is the name of a step, once `.` and `..` have been carried out. -/
structure IsProperName (name : String) : Prop where
  isName : IsName name
  ne_here : name ≠ "."
  ne_up : name ≠ ".."

lemma isName_of_isProperName {names : List String} (h : ∀ name ∈ names, IsProperName name) :
    ∀ name ∈ names, IsName name := fun name hname => (h name hname).isName

lemma isProperName_ofList {piece : List Char} (hslash : '/' ∉ piece) (hstep : isStep piece = true)
    (hup : piece ≠ ['.', '.']) : IsProperName (String.ofList piece) := by
  obtain ⟨hempty, hhere⟩ : piece ≠ [] ∧ piece ≠ ['.'] := by simpa [isStep] using hstep
  have hne {text : String} (hpiece : piece ≠ text.toList) : String.ofList piece ≠ text := by
    rintro rfl
    exact hpiece String.toList_ofList.symm
  exact ⟨⟨hne hempty, by rwa [String.toList_ofList]⟩, hne hhere, hne hup⟩

lemma mem_innerSteps_isProperName {text : List Char} {step : Step} (h : step ∈ innerSteps text) :
    step = .up ∨ ∃ name, step = .name name ∧ IsProperName name := by
  rw [innerSteps_eq_map] at h
  obtain ⟨piece, hpiece, rfl⟩ := List.mem_map.mp h
  obtain ⟨hmem, hstep⟩ := List.mem_filter.mp hpiece
  rw [stepOf]
  split
  · exact Or.inl rfl
  · next hup => exact Or.inr ⟨_, rfl, isProperName_ofList (mem_pieces hmem).1 hstep hup⟩

namespace IsProperName

variable {name : String}

lemma isStep_toList (h : IsProperName name) : isStep name.toList = true := by
  have hempty : name.toList ≠ [] := fun hnil => h.isName.1 (String.toList_eq_nil_iff.mp hnil)
  have hhere : name.toList ≠ ['.'] := fun heq => h.ne_here (String.toList_injective heq)
  rw [isStep, Bool.and_eq_true, bne_iff_ne, bne_iff_ne]
  exact ⟨hempty, hhere⟩

lemma stepOf_toList (h : IsProperName name) : stepOf name.toList = .name name := by
  have hup : name.toList ≠ ['.', '.'] := fun heq => h.ne_up (String.toList_injective heq)
  rw [stepOf, if_neg hup, String.ofList_toList]

end IsProperName

lemma pieces_join_below {names : List String} (hnames : ∀ name ∈ names, IsName name)
    {path : String} (hpath : isAbsolute path = false) :
    Text.pieces '/' (join (below "/" names) path).toList =
      [] :: names.map String.toList ++ Text.pieces '/' path.toList := by
  induction names using List.reverseRecOn generalizing path with
  | nil =>
    have hjoin : join (below "/" []) path = "/" ++ path := by
      rw [below, List.foldl_nil, join, if_neg (by simp [hpath]), if_pos (Or.inr (by decide))]
    rw [hjoin, String.toList_append]
    exact Text.pieces_append '/' [] path.toList
  | append_singleton names name ih =>
    have hname : IsName name := hnames name (by simp)
    have hfront := ih (fun n hn => hnames n (by simp [hn])) hname.not_isAbsolute
    have hbelow : below "/" (names ++ [name]) = join (below "/" names) name := by
      simp [below]
    have hslash := not_endsInSlash_join (below "/" names) hname
    rw [hbelow, toList_join_of_not_endsInSlash hslash hpath, Text.pieces_append, hfront,
      Text.pieces_of_not_mem hname.2]
    simp

lemma steps_below {names : List String} (hnames : ∀ name ∈ names, IsProperName name) :
    steps (below "/" names) = .root :: names.map .name := by
  induction names using List.reverseRecOn with
  | nil => decide
  | append_singleton names name ih =>
    have hname : IsProperName name := hnames name (by simp)
    have hbelow : below "/" (names ++ [name]) = join (below "/" names) name := by
      simp [below]
    have hinner : innerSteps name.toList = [.name name] := by
      rw [innerSteps_eq_map, Text.pieces_of_not_mem hname.isName.2]
      simp [hname.isStep_toList, hname.stepOf_toList]
    rw [hbelow, steps_join (isAbsolute_below (by decide) names) hname.isName.not_isAbsolute,
      ih fun n hn => hnames n (by simp [hn]), hinner, List.map_append]
    rfl

/-- **Normalizing a path carries out its steps.** -/
lemma steps_normalize {path : String} (h : isAbsolute path = true) :
    steps (normalize path) = normalSteps (steps path) := by
  obtain ⟨names, hnames, hsteps, hpath⟩ :=
    exists_normalSteps_eq h fun _ => mem_innerSteps_isProperName
  rw [hpath, hsteps, steps_below hnames]

lemma isAbsolute_normalize {path : String} (h : isAbsolute path = true) :
    isAbsolute (normalize path) = true := by
  obtain ⟨names, hpath, -⟩ := exists_normalize_eq_below h
  rw [hpath]
  exact isAbsolute_below (by decide) names

lemma normalSteps_root_cons {inner : List Step} (h : ∀ step ∈ inner, ∃ name, step = .name name) :
    (.root :: inner).foldl normalSteps.visit [] = inner.reverse ++ [.root] := by
  have hfold (visited : List Step) : inner.foldl normalSteps.visit visited =
      inner.reverse ++ visited := by
    induction inner generalizing visited with
    | nil => rfl
    | cons step inner ih =>
      obtain ⟨⟨name, rfl⟩, hrest⟩ := List.forall_mem_cons.mp h
      have hvisit : normalSteps.visit visited (.name name) = .name name :: visited := rfl
      rw [List.foldl_cons, hvisit, ih hrest]
      simp
  exact hfold [.root]

/-- **Carrying out `.` and `..` once is enough.** -/
lemma normalSteps_append {path : String} (h : isAbsolute path = true) (rest : List Step) :
    normalSteps (normalSteps (steps path) ++ rest) = normalSteps (steps path ++ rest) := by
  obtain ⟨names, -, hsteps, -⟩ := exists_normalSteps_eq h fun _ => mem_innerSteps
  have hvisited : (normalSteps (steps path)).foldl normalSteps.visit [] =
      (steps path).foldl normalSteps.visit [] := by
    have hreverse := congrArg List.reverse hsteps
    rw [normalSteps, List.reverse_reverse] at hreverse
    rw [hreverse, hsteps, normalSteps_root_cons (by simp), List.reverse_cons]
  rw [normalSteps, List.foldl_append, hvisited, ← List.foldl_append]
  rfl

lemma normalize_normalize {path : String} (h : isAbsolute path = true) :
    normalize (normalize path) = normalize path := by
  have hsteps := normalSteps_append h []
  rw [List.append_nil, List.append_nil] at hsteps
  rw [normalize, steps_normalize h, hsteps]
  rfl

/-- **A base can be normalized first.**  What is seen from it comes to the same path. -/
theorem normalize_join_normalize {base : String} (h : isAbsolute base = true) (path : String) :
    normalize (join (normalize base) path) = normalize (join base path) := by
  cases hpath : isAbsolute path with
  | true =>
    rw [join, if_pos hpath, join, if_pos hpath]
  | false =>
    rw [normalize, steps_join (isAbsolute_normalize h) hpath, steps_normalize h,
      normalSteps_append h, ← steps_join h hpath]
    rfl

/-! ### Paths without `..` -/

/-- An absolute path without `..` keeps its steps. -/
lemma steps_normalize_of_up_not_mem {path : String} (h : isAbsolute path = true)
    (hup : .up ∉ steps path) : steps (normalize path) = steps path := by
  have hsteps : steps path = .root :: innerSteps path.toList := by rw [steps, if_pos h]
  have hnames : ∀ step ∈ innerSteps path.toList, ∃ name, step = .name name := by
    intro step hstep
    rcases mem_innerSteps hstep with rfl | ⟨name, rfl, -⟩
    · exact absurd (hsteps ▸ List.mem_cons_of_mem _ hstep) hup
    · exact ⟨name, rfl⟩
  rw [steps_normalize h, normalSteps, hsteps, normalSteps_root_cons hnames]
  simp

lemma stepOf_injective : Function.Injective stepOf := by
  intro a b h
  unfold stepOf at h
  split at h <;> split at h
  · next ha hb => rw [ha, hb]
  · exact nomatch h
  · exact nomatch h
  · exact String.ofList_injective (Step.name.inj h)

/-- **The pieces behind a normalized base.**  They are those behind the base itself, without the
ones that name no step. -/
lemma exists_pieces_join_normalize {base path : String} (hbase : isAbsolute base = true)
    (hup : .up ∉ steps base) (hpath : isAbsolute path = false) :
    ∃ front, Text.pieces '/' (join base path).toList = [] :: front ++ Text.pieces '/' path.toList ∧
      Text.pieces '/' (join (normalize base) path).toList =
        [] :: front.filter isStep ++ Text.pieces '/' path.toList := by
  obtain ⟨front, hpieces, hfront⟩ := exists_pieces_join hbase hpath
  obtain ⟨names, hnames, hsteps, hnormal⟩ :=
    exists_normalSteps_eq hbase fun _ => mem_innerSteps_isProperName
  refine ⟨front, hpieces, ?_⟩
  have hsame : names.map String.toList = front.filter isStep := by
    have hkept : steps base = .root :: names.map .name := by
      rw [← hsteps, ← steps_normalize hbase, steps_normalize_of_up_not_mem hbase hup]
    have hinner : names.map .name = innerSteps base.toList := by
      rw [steps, if_pos hbase] at hkept
      exact (List.cons.inj hkept).2.symm
    rw [innerSteps_eq_map, ← hfront] at hinner
    refine List.map_injective_iff.mpr stepOf_injective ?_
    rw [← hinner, List.map_map]
    exact List.map_congr_left fun name hname => (hnames name hname).stepOf_toList
  rw [hnormal, pieces_join_below (isName_of_isProperName hnames) hpath, hsame]

/-! ### Characters and bytes of pieces -/

lemma mem_iff_exists_pieces {separator c : Char} (hc : c ≠ separator) (text : List Char) :
    c ∈ text ↔ ∃ piece ∈ Text.pieces separator text, c ∈ piece := by
  fun_induction Text.pieces separator text with
  | case1 => simp
  | case2 rest ih => simp [hc, ih]
  | case3 d rest hd hpieces => exact absurd hpieces (Text.pieces_ne_nil separator rest)
  | case4 d rest hd piece more hpieces ih =>
    rw [List.mem_cons, ih, hpieces]
    simp [or_assoc]

/-- The number of bytes of a text. -/
def byteCount (text : List Char) : Nat := (text.flatMap String.utf8EncodeChar).length

lemma utf8ByteSize_eq_byteCount (path : String) : path.utf8ByteSize = byteCount path.toList := by
  conv => lhs; rw [← String.ofList_toList (s := path)]
  exact List.size_toByteArray

/-- With one byte more for each, pieces have as many bytes as the text, and one. -/
lemma sum_byteCount_pieces (text : List Char) :
    ((Text.pieces '/' text).map fun piece => byteCount piece + 1).sum = byteCount text + 1 := by
  have hcons (c : Char) (rest : List Char) :
      byteCount (c :: rest) = (String.utf8EncodeChar c).length + byteCount rest := by
    simp [byteCount]
  fun_induction Text.pieces '/' text with
  | case1 => rfl
  | case2 rest ih =>
    have hslash : (String.utf8EncodeChar '/').length = 1 := by decide
    rw [List.map_cons, List.sum_cons, ih, hcons, hslash]
    simp [byteCount, Nat.add_comm]
  | case3 d rest hd hpieces => exact absurd hpieces (Text.pieces_ne_nil '/' rest)
  | case4 d rest hd piece more hpieces ih =>
    rw [hpieces, List.map_cons, List.sum_cons] at ih
    rw [List.map_cons, List.sum_cons, hcons, hcons, Nat.add_assoc _ (byteCount piece),
      Nat.add_assoc, ih, Nat.add_assoc]

lemma byteCount_le_of_sublist {text text' : List Char}
    (h : (Text.pieces '/' text').Sublist (Text.pieces '/' text)) :
    byteCount text' ≤ byteCount text := by
  have hsum := (h.map fun piece => byteCount piece + 1).sum_le_sum fun _ _ => Nat.zero_le _
  rw [sum_byteCount_pieces, sum_byteCount_pieces] at hsum
  exact Nat.le_of_succ_le_succ hsum

section

variable {base path : String} (hbase : isAbsolute base = true) (hup : .up ∉ steps base)
  (hpath : isAbsolute path = false)

include hbase hup hpath

/-- Behind a normalized base a path is not longer. -/
lemma utf8ByteSize_join_normalize_le :
    (join (normalize base) path).utf8ByteSize ≤ (join base path).utf8ByteSize := by
  obtain ⟨front, hpieces, hnormal⟩ := exists_pieces_join_normalize hbase hup hpath
  rw [utf8ByteSize_eq_byteCount, utf8ByteSize_eq_byteCount]
  refine byteCount_le_of_sublist ?_
  rw [hpieces, hnormal]
  exact (List.filter_sublist.cons_cons []).append_right _

/-- Behind a normalized base a path has the same characters, up to slashes and dots. -/
lemma mem_join_normalize_iff {c : Char} (hslash : c ≠ '/') (hdot : c ≠ '.') :
    c ∈ (join (normalize base) path).toList ↔ c ∈ (join base path).toList := by
  obtain ⟨front, hpieces, hnormal⟩ := exists_pieces_join_normalize hbase hup hpath
  have hisStep {piece : List Char} (hc : c ∈ piece) : isStep piece = true := by
    rw [isStep, Bool.and_eq_true, bne_iff_ne, bne_iff_ne]
    constructor
    · rintro rfl
      exact nomatch hc
    · rintro rfl
      exact hdot (List.mem_singleton.mp hc)
  rw [mem_iff_exists_pieces hslash, mem_iff_exists_pieces hslash, hpieces, hnormal]
  constructor
  · rintro ⟨piece, hpiece, hc⟩
    exact ⟨piece, ((List.filter_sublist.cons_cons []).append_right _).subset hpiece, hc⟩
  · rintro ⟨piece, hpiece, hc⟩
    refine ⟨piece, ?_, hc⟩
    rcases List.mem_append.mp hpiece with hfront | hpath
    · have hkept : piece ∈ ([] :: front).filter isStep := List.mem_filter.mpr ⟨hfront, hisStep hc⟩
      exact List.mem_append_left _ (List.mem_cons_of_mem _ hkept)
    · exact List.mem_append_right _ hpath

end

end SheetLint.Path
