import Mathlib.Data.List.Forall2
import Mathlib.Data.Prod.Lex
import SheetLint.Format.Table
import SheetLint.Proofs.Distinct
import SheetLint.Proofs.Text.Pieces

/-!
# What the table shows

The table is made of three kinds of lines.  Invalid options and deprecations stand in front, one
line for each text, in the order of first occurrences over all results (`map_firstOfEach`); the line
of a deprecation has the reference of the first one with its text (`find?_of_mem_firstOfEach`).

Then each result with warnings has a part of its own (`IsTable`): its source and a row for every
warning.  The rows stand in the order of the positions, and rows of one position in the order of the
result, which together leave only one order (`IsArrangement`).

A row shows the position, aligned with those of the other rows of the part; a mark for the severity;
the text, from which a mention of the rule at its end is taken (`IsWithoutRule`); and the rule.  The
column of the positions is as wide as the longest of them, and no wider (`IsWidth`).

The relations here say what is shown without saying how it is made.  `table_eq_join` puts them
together for any results.
-/

namespace SheetLint.Format

/-! ### First occurrences -/

section

variable {α β : Type} [DecidableEq β] (key : α → β)

lemma map_firstOfEach_seen (seen : List β) (xs : List α) :
    (firstOfEach key seen xs).map key =
      ((xs.map key).filter fun k => !seen.contains k).eraseDups := by
  induction xs generalizing seen with
  | nil => rfl
  | cons x xs ih =>
    rw [firstOfEach, List.map_cons]
    by_cases hseen : key x ∈ seen
    · rw [if_pos hseen, List.filter_cons_of_neg (by simpa using hseen), ih]
    · have hlater : ((xs.map key).filter fun k => !(key x :: seen).contains k) =
          ((xs.map key).filter fun k => !seen.contains k).filter fun k => !k == key x := by
        rw [List.filter_filter]
        refine List.filter_congr fun k _ => ?_
        rw [List.contains_cons, Bool.not_or]
      rw [if_neg hseen, List.filter_cons_of_pos (by simpa using hseen), List.map_cons,
        List.eraseDups_cons, ih, hlater]

/-- **One element for each key**, in the order in which the keys occur first. -/
lemma map_firstOfEach (xs : List α) : (firstOfEach key [] xs).map key = (xs.map key).eraseDups := by
  rw [map_firstOfEach_seen]
  simp

/-- The element that is kept for a key is the first one with it.  What has been seen in front of the
list has other keys. -/
lemma find?_of_mem_firstOfEach_seen {seen : List β} {xs : List α} {x : α}
    (h : x ∈ firstOfEach key seen xs) :
    xs.find? (fun y => key y = key x) = some x ∧ key x ∉ seen := by
  induction xs generalizing seen with
  | nil => exact nomatch h
  | cons y xs ih =>
    rw [firstOfEach] at h
    split at h
    · next hseen =>
      obtain ⟨hfirst, hnew⟩ := ih h
      have hne : key y ≠ key x := fun heq => hnew (heq ▸ hseen)
      exact ⟨by rw [List.find?_cons_of_neg (by simpa using hne), hfirst], hnew⟩
    · next hy =>
      rcases List.mem_cons.mp h with rfl | h
      · exact ⟨List.find?_cons_of_pos (by simp), hy⟩
      · obtain ⟨hfirst, hnew⟩ := ih h
        rw [List.mem_cons, not_or] at hnew
        have hne : key y ≠ key x := Ne.symm hnew.1
        exact ⟨by rw [List.find?_cons_of_neg (by simpa using hne), hfirst], hnew.2⟩

lemma find?_of_mem_firstOfEach {xs : List α} {x : α} (h : x ∈ firstOfEach key [] xs) :
    xs.find? (fun y => key y = key x) = some x :=
  (find?_of_mem_firstOfEach_seen key h).1

end

/-! ### The text of a warning -/

/-- `shown` is the text without a trailing mention of the rule in parentheses, or the text itself
when it has none. -/
def IsWithoutRule (text rule shown : String) : Prop :=
  text = shown ++ " (" ++ rule ++ ")" ∨ shown = text ∧ ∀ front, text ≠ front ++ " (" ++ rule ++ ")"

lemma without?_ruleSuffix_iff (text rule front : String) :
    Text.without? (SourceResult.ruleSuffix rule).toList text.toList = some front.toList ↔
      text = front ++ " (" ++ rule ++ ")" := by
  rw [Text.without?_eq_some_iff, ← String.toList_append, String.toList_inj]
  simp only [SourceResult.ruleSuffix, String.append_assoc]

/-- **The mention of the rule is left out.** -/
lemma isWithoutRule_withoutRule (text rule : String) :
    IsWithoutRule text rule (withoutRule text rule) := by
  unfold withoutRule
  split
  · next front hfront =>
    refine Or.inl ((without?_ruleSuffix_iff text rule _).mp ?_)
    rwa [String.toList_ofList]
  · next hnone =>
    refine Or.inr ⟨rfl, fun front htext => ?_⟩
    rw [(without?_ruleSuffix_iff text rule front).mpr htext] at hnone
    exact nomatch hnone

/-! ### The order of rows -/

/-- The position of a warning in its source, lines before columns. -/
def place (w : Warning) : ℕ ×ₗ ℕ := toLex (w.line, w.column)

lemma notBehind_iff (v w : Warning) : notBehind v w = true ↔ place v ≤ place w := by
  simp [notBehind, place, Prod.Lex.toLex_le_toLex]

/-- The rows are all the warnings, in the order of their positions, and those of one position in
their own order. -/
structure IsArrangement (warnings rows : List Warning) : Prop where
  perm : rows.Perm warnings
  sorted : rows.Pairwise fun v w => place v ≤ place w
  stable : ∀ p, (rows.filter fun w => place w = p) = warnings.filter fun w => place w = p

/-- **The rows are sorted, and stay in order.**  The warnings of one position are sorted as they
are, so sorting leaves them as they are. -/
lemma isArrangement_mergeSort (warnings : List Warning) :
    IsArrangement warnings (warnings.mergeSort notBehind) := by
  have htrans (u v w : Warning) (huv : notBehind u v = true) (hvw : notBehind v w = true) :
      notBehind u w = true := by
    rw [notBehind_iff] at huv hvw ⊢
    exact huv.trans hvw
  have htotal (v w : Warning) : (notBehind v w || notBehind w v) = true := by
    rw [Bool.or_eq_true, notBehind_iff, notBehind_iff]
    exact le_total _ _
  have hperm := List.mergeSort_perm warnings notBehind
  refine ⟨hperm, ?_, fun p => ?_⟩
  · exact (List.pairwise_mergeSort htrans htotal warnings).imp (notBehind_iff _ _).mp
  · have hequal : (warnings.filter fun w => place w = p).Pairwise
        fun v w => notBehind v w = true := by
      refine List.pairwise_of_forall_mem_list fun v hv w hw => (notBehind_iff v w).mpr (le_of_eq ?_)
      have hv := (List.mem_filter.mp hv).2
      have hw := (List.mem_filter.mp hw).2
      rw [of_decide_eq_true hv, of_decide_eq_true hw]
    -- Warnings of one position are a sorted part of the list, which a stable sort leaves in order.
    have hkept := (List.sublist_mergeSort htrans htotal hequal List.filter_sublist).filter
      fun w => decide (place w = p)
    rw [List.filter_filter] at hkept
    simp only [Bool.and_self] at hkept
    exact (hkept.eq_of_length (hperm.filter _).length_eq.symm).symm

/-! ### Rows -/

/-- The position of a warning as a row shows it. -/
def placeText (w : Warning) : String := toString w.line ++ ":" ++ toString w.column

/-- The field is the text behind blanks, `width` characters wide. -/
def IsAlignedRight (width : ℕ) (text field : String) : Prop :=
  (∃ blanks, field = String.ofList (List.replicate blanks ' ') ++ text) ∧ field.length = width

/-- The line is the row of a warning, where positions are `width` characters wide. -/
def IsRow (width : ℕ) (w : Warning) (line : String) : Prop :=
  ∃ field shown, IsAlignedRight width (placeText w) field ∧ IsWithoutRule w.text w.rule shown ∧
    line = " " ++ field ++ "  " ++ symbol w.severity ++ "  " ++ shown ++ "  " ++ w.rule ++ "\n"

lemma isRow_row {width : ℕ} {w : Warning} (h : (position w).length ≤ width) :
    IsRow width w (row width w) := by
  refine ⟨alignRight width (position w), withoutRule w.text w.rule, ⟨⟨_, rfl⟩, ?_⟩,
    isWithoutRule_withoutRule _ _, rfl⟩
  rw [alignRight, String.length_append, String.length_ofList, List.length_replicate]
  omega

/-- `width` is the length of the longest position of the warnings. -/
structure IsWidth (warnings : List Warning) (width : ℕ) : Prop where
  reached : ∃ w ∈ warnings, (placeText w).length = width
  bound : ∀ w ∈ warnings, (placeText w).length ≤ width

lemma isWidth_foldl_max {warnings : List Warning} (h : warnings ≠ []) :
    IsWidth warnings ((warnings.map fun w => (placeText w).length).foldl max 0) := by
  have hne : (warnings.map fun w => (placeText w).length) ≠ [] := by simpa using h
  obtain ⟨top, htop⟩ := Option.isSome_iff_exists.mp (List.isSome_max?_of_ne_nil hne)
  obtain ⟨hmem, hbound⟩ := List.max?_eq_some_iff.mp htop
  rw [List.foldl_max, htop, Option.getD_some, Nat.max_eq_right top.zero_le]
  exact ⟨List.mem_map.mp hmem, fun w hw => hbound _ (List.mem_map_of_mem hw)⟩

lemma IsWidth.perm {warnings rows : List Warning} {width : ℕ} (h : IsWidth rows width)
    (hperm : rows.Perm warnings) : IsWidth warnings width := by
  obtain ⟨w, hw, hlength⟩ := h.reached
  exact ⟨⟨w, hperm.mem_iff.mp hw, hlength⟩, fun v hv => h.bound v (hperm.mem_iff.mpr hv)⟩

/-! ### Tables -/

/-- The text is the table of a result: its source and its rows, with positions as wide as the
longest one. -/
def IsTable (r : SourceResult) (text : String) : Prop :=
  ∃ rows lines width, IsArrangement r.warnings rows ∧
    IsWidth r.warnings width ∧
    List.Forall₂ (IsRow width) rows lines ∧
    text = "\n" ++ r.source ++ "\n" ++ String.join lines

lemma isTable_of_rows {r : SourceResult} {rows : List Warning} {width : ℕ}
    (hrows : IsArrangement r.warnings rows) (hwidth : IsWidth rows width) :
    IsTable r ("\n" ++ r.source ++ "\n" ++ String.join (rows.map (row width))) := by
  refine ⟨rows, rows.map (row width), width, hrows, hwidth.perm hrows.perm, ?_, rfl⟩
  refine List.forall₂_map_right_iff.mpr (List.forall₂_same.mpr fun w hw => isRow_row ?_)
  exact hwidth.bound w hw

/-- **A result with warnings has a table.** -/
lemma isTable_sourceTable {r : SourceResult} (h : r.warnings ≠ []) :
    IsTable r (sourceTable r) := by
  have hrows := isArrangement_mergeSort r.warnings
  have hne : r.warnings.mergeSort notBehind ≠ [] := fun hnil => h (hnil ▸ hrows.perm).symm.eq_nil
  rw [sourceTable, if_neg (by simpa using h)]
  exact isTable_of_rows hrows (isWidth_foldl_max hne)

lemma join_map_filter {α : Type} {part : α → String} {shows : α → Bool} {xs : List α}
    (h : ∀ x ∈ xs, shows x = false → part x = "") :
    String.join ((xs.filter shows).map part) = String.join (xs.map part) := by
  induction xs with
  | nil => rfl
  | cons x xs ih =>
    obtain ⟨hfirst, hrest⟩ := List.forall_mem_cons.mp h
    rw [List.map_cons, String.join_cons, ← ih hrest]
    cases hshows : shows x with
    | true => rw [List.filter_cons_of_pos hshows, List.map_cons, String.join_cons]
    | false =>
      rw [List.filter_cons_of_neg (by simp [hshows]), hfirst hshows, String.empty_append]

/-- The line is that of the deprecations of a text, with the reference of the first one. -/
def IsDeprecationLine (deprecations : List Deprecation) (text line : String) : Prop :=
  ∃ d, deprecations.find? (fun other => other.text = text) = some d ∧
    line = "Deprecation Warning: " ++ text ++ ((d.reference.map (" See: " ++ ·)).getD "") ++ "\n"

lemma isDeprecationLine_of_mem {deprecations : List Deprecation} {d : Deprecation}
    (h : d ∈ firstOfEach Deprecation.text [] deprecations) :
    IsDeprecationLine deprecations d.text (deprecationLine d) := by
  refine ⟨d, find?_of_mem_firstOfEach Deprecation.text h, ?_⟩
  unfold deprecationLine
  cases d.reference with
  | none => simp only [Option.map_none, Option.getD_none]
  | some reference => simp only [Option.map_some, Option.getD_some]

/-- **The table loses, repeats and reorders nothing.**  Of all the results together, each text of an
invalid option has a line and each text of a deprecation has one, in the order in which they occur
first, the latter with the reference of the first deprecation with the text.  Then each result with
warnings has its table, in the order of the results. -/
theorem table_eq_join (results : List SourceResult) :
    ∃ deprecationLines tables : List String,
      List.Forall₂ (IsDeprecationLine (results.flatMap (·.deprecations)))
        ((results.flatMap (·.deprecations)).map (·.text)).eraseDups deprecationLines ∧
      List.Forall₂ IsTable (results.filter fun r => !r.warnings.isEmpty) tables ∧
      table results =
        String.join (((results.flatMap (·.invalidOptions)).map (·.text)).eraseDups.map
          fun text => "Invalid Option: " ++ text ++ "\n") ++
        String.join deprecationLines ++ String.join tables := by
  refine ⟨(firstOfEach Deprecation.text [] (results.flatMap (·.deprecations))).map deprecationLine,
    (results.filter fun r => !r.warnings.isEmpty).map sourceTable, ?_, ?_, ?_⟩
  · rw [← map_firstOfEach Deprecation.text]
    refine List.forall₂_map_left_iff.mpr (List.forall₂_map_right_iff.mpr ?_)
    exact List.forall₂_same.mpr fun d hd => isDeprecationLine_of_mem hd
  · refine List.forall₂_map_right_iff.mpr (List.forall₂_same.mpr fun r hr => isTable_sourceTable ?_)
    simpa using (List.mem_filter.mp hr).2
  · have hempty : ∀ r ∈ results, (!r.warnings.isEmpty) = false → sourceTable r = "" := by
      intro r _ hr
      rw [sourceTable, if_pos (by simpa using hr)]
    rw [table, join_map_filter hempty, ← map_firstOfEach InvalidOption.text, List.map_map]
    rfl

end SheetLint.Format
