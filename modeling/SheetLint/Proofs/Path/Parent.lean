import SheetLint.Proofs.Path.Around
import SheetLint.Proofs.Path.Normal

/-!
# The directory around a path

The path around another one is the front of its spelling up to the last step, without pieces at its
end that name no step.  `EndsWithStep` says how a path goes on behind the path around it: with a
last step, and behind it pieces that name none, such as the empty one behind a slash.

That the path around has this relation to the path is `exists_of_parent?`; the other way round, a
path with a last step has a path around it, `exists_parent?_of_step`.  With the relation come the
facts that a recursion along paths around needs: each is shorter (`EndsWithStep.length_lt`), spells
the front of the path (`exists_toList_of_isAncestor`), and ends in a step itself unless it is the
root, `.` or empty (`exists_pieces_of_parent?`).

Throughout, a path is cut into its pieces and spelled again.  The root is the one case in which the
pieces do not spell the path: it has a slash but no step.
-/

namespace SheetLint.Path

/-! ### Pieces and their spelling -/

lemma ofPieces_cons_cons (piece next : List Char) (more : List (List Char)) :
    (ofPieces (piece :: next :: more)).toList =
      piece ++ '/' :: (ofPieces (next :: more)).toList := by
  simp [ofPieces, List.intercalate]

lemma toList_ofPieces_pieces (text : List Char) :
    (ofPieces (Text.pieces '/' text)).toList = text := by
  fun_induction Text.pieces '/' text with
  | case1 => rfl
  | case2 rest ih =>
    obtain ⟨piece, more, hpieces⟩ := List.exists_cons_of_ne_nil (Text.pieces_ne_nil '/' rest)
    rw [hpieces, ofPieces_cons_cons, ← hpieces, ih]
    rfl
  | case3 c rest _ hpieces => exact absurd hpieces (Text.pieces_ne_nil '/' rest)
  | case4 c rest _ piece more hpieces ih =>
    rw [hpieces] at ih
    cases more with
    | nil =>
      rw [← ih]
      simp [ofPieces, List.intercalate]
    | cons next more =>
      rw [ofPieces_cons_cons] at ih ⊢
      rw [List.cons_append, ih]

lemma pieces_ofPieces {pieces : List (List Char)} (hne : pieces ≠ [])
    (hslash : ∀ piece ∈ pieces, '/' ∉ piece) :
    Text.pieces '/' (ofPieces pieces).toList = pieces := by
  induction pieces with
  | nil => exact absurd rfl hne
  | cons piece more ih =>
    obtain ⟨hpiece, hmore⟩ := List.forall_mem_cons.mp hslash
    cases more with
    | nil =>
      have hone : (ofPieces [piece]).toList = piece := by simp [ofPieces, List.intercalate]
      rw [hone, Text.pieces_of_not_mem hpiece]
    | cons next more =>
      rw [ofPieces_cons_cons, Text.pieces_append, Text.pieces_of_not_mem hpiece,
        ih (List.cons_ne_nil next more) hmore, List.singleton_append]

lemma exists_toList_ofPieces_append (front back : List (List Char)) :
    ∃ behind, (ofPieces (front ++ back)).toList = (ofPieces front).toList ++ behind := by
  induction front with
  | nil => exact ⟨_, rfl⟩
  | cons piece front ih =>
    cases front with
    | nil =>
      cases back with
      | nil => exact ⟨[], by simp⟩
      | cons next back =>
        refine ⟨'/' :: (ofPieces (next :: back)).toList, ?_⟩
        rw [List.singleton_append, ofPieces_cons_cons]
        simp [ofPieces, List.intercalate]
    | cons next front =>
      obtain ⟨behind, hbehind⟩ := ih
      refine ⟨behind, ?_⟩
      rw [List.cons_append, List.cons_append, ofPieces_cons_cons, ofPieces_cons_cons,
        ← List.cons_append, hbehind]
      simp

/-- What trimming takes away names no step. -/
lemma exists_eq_trimPieces_append (pieces : List (List Char)) :
    ∃ trailing, pieces = trimPieces pieces ++ trailing ∧
      ∀ piece ∈ trailing, isStep piece = false := by
  refine ⟨(pieces.reverse.takeWhile fun piece => !isStep piece).reverse, ?_, fun piece hpiece => ?_⟩
  · rw [trimPieces, ← List.reverse_append, List.takeWhile_append_dropWhile, List.reverse_reverse]
  · have hall := List.all_takeWhile (p := fun piece => !isStep piece) (l := pieces.reverse)
    simpa using List.all_eq_true.mp hall piece (List.mem_reverse.mp hpiece)

lemma filter_isStep_trimPieces (pieces : List (List Char)) :
    (trimPieces pieces).filter isStep = pieces.filter isStep := by
  obtain ⟨trailing, hpieces, htrailing⟩ := exists_eq_trimPieces_append pieces
  have hnone : trailing.filter isStep = [] := List.filter_eq_nil_iff.mpr (by simpa using htrailing)
  conv => rhs; rw [hpieces, List.filter_append, hnone, List.append_nil]

/-! ### The last step -/

/-- **How a path is spelled behind the path around it.** -/
structure EndsWithStep (parent path : String) (last : List Char) (trailing : List (List Char)) :
    Prop where
  last_isStep : isStep last = true
  trailing_not_isStep : ∀ piece ∈ trailing, isStep piece = false
  steps : ∃ front, Text.pieces '/' path.toList = front ++ last :: trailing ∧
    (Text.pieces '/' parent.toList).filter isStep = front.filter isStep
  text : ∃ behind, path.toList = parent.toList ++ behind

lemma parent?_eq {path : String} {first last : List Char} {rest inner : List (List Char)}
    (hpieces : Text.pieces '/' path.toList = first :: rest)
    (hlast : trimPieces rest = inner ++ [last]) :
    parent? path = some (if first = [] then "/" ++ ofPieces (trimPieces inner)
      else ofPieces (first :: trimPieces inner)) := by
  obtain ⟨step, steps, hsteps⟩ := List.exists_cons_of_ne_nil
    (List.append_ne_nil_of_right_ne_nil inner (List.cons_ne_nil last []))
  have hinner : (step :: steps).dropLast = inner := by rw [← hsteps, List.dropLast_concat]
  unfold parent?
  rw [hpieces]
  simp only [hlast, hsteps]
  cases first with
  | nil => simp only [hinner, if_true]
  | cons c first => simp only [hinner, List.cons_ne_nil, if_false]

lemma toList_around (first : List Char) (inner : List (List Char)) :
    (first = [] ∧ inner = [] ∧
      (if first = [] then "/" ++ ofPieces inner else ofPieces (first :: inner)) = "/") ∨
    (if first = [] then "/" ++ ofPieces inner else ofPieces (first :: inner)) =
      ofPieces (first :: inner) := by
  by_cases hfirst : first = []
  · subst hfirst
    cases inner with
    | nil => exact Or.inl ⟨rfl, rfl, rfl⟩
    | cons piece inner =>
      right
      rw [if_pos rfl]
      apply String.toList_inj.mp
      rw [String.toList_append, ofPieces_cons_cons]
      rfl
  · exact Or.inr (if_neg hfirst)

/-- What trimming leaves of pieces behind whose last step there is none. -/
lemma trimPieces_of_last {inner trailing : List (List Char)} {last : List Char}
    (hlast : isStep last = true) (htrailing : ∀ piece ∈ trailing, isStep piece = false) :
    trimPieces (inner ++ last :: trailing) = inner ++ [last] := by
  have hdropped : ∀ piece ∈ trailing.reverse, (!isStep piece) = true := fun piece hpiece => by
    rw [htrailing piece (List.mem_reverse.mp hpiece)]
    rfl
  rw [trimPieces, List.reverse_append, List.reverse_cons, List.append_assoc, List.singleton_append,
    List.dropWhile_append_of_pos hdropped, List.dropWhile_cons_of_neg (by simp [hlast]),
    List.reverse_cons, List.reverse_reverse]

/-- **The path around a path** with more than one piece ends right before the last step. -/
lemma exists_parent?_of_pieces {path : String} {first last : List Char}
    {inner trailing : List (List Char)}
    (hpieces : Text.pieces '/' path.toList = first :: (inner ++ last :: trailing))
    (hlast : isStep last = true) (htrailing : ∀ piece ∈ trailing, isStep piece = false) :
    ∃ parent, parent? path = some parent ∧ parent ≠ "" ∧
      EndsWithStep parent path last trailing := by
  have hslash : ∀ piece ∈ first :: (inner ++ last :: trailing), '/' ∉ piece := by
    rw [← hpieces]
    exact fun piece hpiece => (mem_pieces hpiece).1
  obtain ⟨between, hinner, hbetween⟩ := exists_eq_trimPieces_append inner
  have hsplit : first :: (inner ++ last :: trailing) =
      (first :: trimPieces inner) ++ (between ++ last :: trailing) := by
    conv => lhs; rw [hinner]
    simp
  have hpath : path.toList =
      (ofPieces ((first :: trimPieces inner) ++ (between ++ last :: trailing))).toList := by
    rw [← hsplit, ← hpieces, toList_ofPieces_pieces]
  have hfilter : (first :: inner).filter isStep = (first :: trimPieces inner).filter isStep := by
    rw [List.filter_cons, List.filter_cons, filter_isStep_trimPieces]
  -- What is left to show: the path around is not empty, its steps are those before the last one,
  -- and it spells the front of the path.
  refine ⟨_, parent?_eq hpieces (trimPieces_of_last hlast htrailing), ?_, hlast, htrailing,
    ⟨first :: inner, hpieces, ?_⟩, ?_⟩
  · intro hempty
    cases first with
    | nil =>
      have hnil := congrArg String.toList hempty
      rw [if_pos rfl, String.toList_append] at hnil
      cases hnil
    | cons c first =>
      rw [if_neg (List.cons_ne_nil c first)] at hempty
      have hnil := congrArg String.toList hempty
      cases hmore : trimPieces inner with
      | nil =>
        rw [hmore] at hnil
        simp [ofPieces, List.intercalate] at hnil
      | cons piece more =>
        rw [hmore, ofPieces_cons_cons] at hnil
        cases hnil
  · rw [hfilter]
    -- the root is spelled by a slash; any other path by its pieces
    rcases toList_around first (trimPieces inner) with ⟨rfl, hnil, hroot⟩ | hpieces'
    · rw [hroot, hnil]
      rfl
    · rw [hpieces', pieces_ofPieces (List.cons_ne_nil _ _)]
      refine fun piece hpiece => hslash piece ?_
      rw [hsplit]
      exact List.mem_append_left _ hpiece
  · rw [hpath]
    rcases toList_around first (trimPieces inner) with ⟨rfl, hnil, hroot⟩ | hpieces'
    · rw [hroot, hnil]
      obtain ⟨next, more, hmore⟩ := List.exists_cons_of_ne_nil
        (List.append_ne_nil_of_right_ne_nil between (List.cons_ne_nil last trailing))
      rw [hmore]
      exact ⟨_, ofPieces_cons_cons [] next more⟩
    · rw [hpieces']
      exact exists_toList_ofPieces_append _ _

/-- **The path around a path.**  Unless it is empty, it ends right before the last step. -/
lemma exists_of_parent? {path parent : String} (h : parent? path = some parent)
    (hne : parent ≠ "") : ∃ last trailing, EndsWithStep parent path last trailing := by
  obtain ⟨first, rest, hpieces⟩ := List.exists_cons_of_ne_nil (Text.pieces_ne_nil '/' path.toList)
  obtain ⟨trailing, hrest, htrailing⟩ := exists_eq_trimPieces_append rest
  rcases List.eq_nil_or_concat' (trimPieces rest) with hnone | ⟨inner, last, hlast⟩
  · unfold parent? at h
    simp only [hpieces, hnone] at h
    cases first with
    | nil => exact nomatch h
    | cons c first => exact absurd (Option.some.inj h).symm hne
  · rw [hlast, List.append_assoc, List.singleton_append] at hrest
    rw [hrest] at hpieces
    obtain ⟨parent', hparent', -, hends⟩ := exists_parent?_of_pieces hpieces
      (isStep_of_getLast?_trimPieces (by rw [hlast, List.getLast?_concat])) htrailing
    obtain rfl := Option.some.inj (h.symm.trans hparent')
    exact ⟨last, trailing, hends⟩

/-- **What ends in a step** has a path around it, which may be empty. -/
lemma exists_parent?_of_step {path : String} {front : List (List Char)} {last : List Char}
    (hpieces : Text.pieces '/' path.toList = front ++ [last]) (hlast : isStep last = true) :
    ∃ parent, parent? path = some parent ∧ EndsWithStep parent path last [] := by
  cases front with
  | nil =>
    rw [List.nil_append] at hpieces
    refine ⟨"", ?_, hlast, by simp, ⟨[], hpieces, rfl⟩, path.toList, rfl⟩
    cases last with
    | nil => exact nomatch hlast
    | cons c last =>
      unfold parent?
      simp only [hpieces]
      rfl
  | cons first inner =>
    obtain ⟨parent, hparent, -, hends⟩ :=
      exists_parent?_of_pieces hpieces hlast (List.forall_mem_nil _)
    exact ⟨parent, hparent, hends⟩

/-- **How a path around another one ends**: in a step, unless it is the root, `.`, or empty. -/
lemma exists_pieces_of_parent? {path dir : String} (h : parent? path = some dir) :
    dir = "" ∨ dir = "/" ∨ dir = "." ∨
      ∃ front last, Text.pieces '/' dir.toList = front ++ [last] ∧ isStep last = true := by
  obtain ⟨first, rest, hpieces⟩ := List.exists_cons_of_ne_nil (Text.pieces_ne_nil '/' path.toList)
  have hslash : ∀ piece ∈ first :: rest, '/' ∉ piece := by
    rw [← hpieces]
    exact fun piece hpiece => (mem_pieces hpiece).1
  -- no step besides the first piece: then nothing is left, or the path was relative
  rcases List.eq_nil_or_concat' (trimPieces rest) with hnone | ⟨inner, last, hlast⟩
  · unfold parent? at h
    simp only [hpieces, hnone] at h
    cases first with
    | nil => exact nomatch h
    | cons c first => exact Or.inl (Option.some.inj h).symm
  rw [parent?_eq hpieces hlast, Option.some.injEq] at h
  rcases toList_around first (trimPieces inner) with ⟨-, -, hroot⟩ | hspelled
  · exact Or.inr (Or.inl (h.symm.trans hroot))
  have hdir : dir = ofPieces (first :: trimPieces inner) := h.symm.trans hspelled
  have hdirPieces : Text.pieces '/' dir.toList = first :: trimPieces inner := by
    rw [hdir]
    refine pieces_ofPieces (List.cons_ne_nil _ _) ?_
    obtain ⟨hfirst, hrest⟩ := List.forall_mem_cons.mp hslash
    refine List.forall_mem_cons.mpr ⟨hfirst, fun piece hpiece => hrest piece ?_⟩
    refine mem_of_mem_trimPieces ?_
    rw [hlast]
    exact List.mem_append_left _ (mem_of_mem_trimPieces hpiece)
  rcases List.eq_nil_or_concat' (trimPieces inner) with hnil | ⟨front, piece, hpiece⟩
  · rw [hnil] at hdir hdirPieces
    -- The first piece alone is left. If it names no step it is empty or a dot.
    by_cases hstep : isStep first = true
    · exact Or.inr (Or.inr (Or.inr ⟨[], first, hdirPieces, hstep⟩))
    have hone : dir = String.ofList first := by rw [hdir]; simp [ofPieces, List.intercalate]
    rcases (by simpa [isStep, or_iff_not_imp_left] using hstep : first = [] ∨ first = ['.']) with
      rfl | rfl
    · exact Or.inl hone
    · exact Or.inr (Or.inr (Or.inl hone))
  · refine Or.inr (Or.inr (Or.inr ⟨first :: front, piece, ?_, ?_⟩))
    · rw [hdirPieces, hpiece]
      rfl
    · exact isStep_of_getLast?_trimPieces (by rw [hpiece, List.getLast?_concat])

/-- A path is longer than the path around it. -/
lemma EndsWithStep.length_lt {path parent : String} {last : List Char}
    {trailing : List (List Char)} (h : EndsWithStep parent path last trailing) :
    parent.length < path.length := by
  obtain ⟨behind, hbehind⟩ := h.text
  obtain ⟨front, hpieces, hfront⟩ := h.steps
  rw [← String.length_toList, ← String.length_toList, hbehind, List.length_append]
  cases behind with
  | cons c behind => simp
  | nil =>
    rw [List.append_nil] at hbehind
    have hsame := congrArg (fun pieces => (pieces.filter isStep).length) hpieces
    simp only [hbehind, List.filter_append, List.length_append, hfront, List.filter_cons,
      h.last_isStep, if_true, List.length_cons] at hsame
    omega

lemma exists_toList_join (base : String) {name : String} (hname : isAbsolute name = false) :
    ∃ slash, (slash = [] ∨ slash = ['/']) ∧
      (join base name).toList = base.toList ++ (slash ++ name.toList) := by
  by_cases hslash : EndsInSlash base
  · exact ⟨[], Or.inl rfl, by rw [join_of_endsInSlash hslash hname, String.toList_append]; rfl⟩
  · exact ⟨['/'], Or.inr rfl, toList_join_of_not_endsInSlash hslash hname⟩

lemma endsWithStep_join {base name : String} (hne : base ≠ "") (hname : IsProperName name) :
    EndsWithStep base (join base name) name.toList [] := by
  have hrelative := hname.isName.not_isAbsolute
  have hone : Text.pieces '/' name.toList = [name.toList] := Text.pieces_of_not_mem hname.isName.2
  obtain ⟨slash, -, htext⟩ := exists_toList_join base hrelative
  refine ⟨hname.isStep_toList, by simp, ?_, _, htext⟩
  by_cases hslash : EndsInSlash base
  · obtain ⟨front, hfront⟩ := List.getLast?_eq_some_iff.mp (hslash.resolve_left hne)
    have hjoin : (join base name).toList = front ++ '/' :: name.toList := by
      rw [join_of_endsInSlash hslash hrelative, String.toList_append, hfront, List.append_assoc]
      rfl
    refine ⟨Text.pieces '/' front, by rw [hjoin, Text.pieces_append, hone], ?_⟩
    rw [hfront, Text.pieces_append, List.filter_append]
    exact List.append_nil _
  · refine ⟨Text.pieces '/' base.toList, ?_, rfl⟩
    rw [toList_join_of_not_endsInSlash hslash hrelative, Text.pieces_append, hone]

/-! ### All paths around a path -/

/-- A path around another one spells the front of it. -/
lemma exists_toList_of_isAncestor {dir path : String} (h : IsAncestor dir path) :
    ∃ behind, path.toList = dir.toList ++ behind := by
  have hstep {dir path : String} (h : parent? path = some dir) :
      ∃ behind, path.toList = dir.toList ++ behind := by
    by_cases hempty : dir = ""
    · exact ⟨path.toList, by rw [hempty]; rfl⟩
    · obtain ⟨last, trailing, hends⟩ := exists_of_parent? h hempty
      exact hends.text
  induction h using Relation.TransGen.head_induction_on with
  | single hparent => exact hstep hparent
  | head hparent _ ih =>
    obtain ⟨behind, hbehind⟩ := ih
    obtain ⟨between, hbetween⟩ := hstep hparent
    exact ⟨between ++ behind, by rw [hbehind, hbetween, List.append_assoc]⟩

lemma mem_pieces_of_isAncestor {dir path : String} (h : IsAncestor dir path) {piece : List Char}
    (hstep : isStep piece = true) (hpiece : piece ∈ Text.pieces '/' dir.toList) :
    piece ∈ Text.pieces '/' path.toList := by
  have hparent {dir path : String} (h : parent? path = some dir)
      (hpiece : piece ∈ Text.pieces '/' dir.toList) : piece ∈ Text.pieces '/' path.toList := by
    by_cases hempty : dir = ""
    · subst hempty
      obtain rfl : piece = [] := List.mem_singleton.mp hpiece
      exact nomatch hstep
    · obtain ⟨last, trailing, hends⟩ := exists_of_parent? h hempty
      obtain ⟨front, hpieces, hsteps⟩ := hends.steps
      have hmem : piece ∈ front.filter isStep := by
        rw [← hsteps]
        exact List.mem_filter.mpr ⟨hpiece, hstep⟩
      rw [hpieces]
      exact List.mem_append_left _ (List.mem_filter.mp hmem).1
  induction h using Relation.TransGen.head_induction_on with
  | single h => exact hparent h hpiece
  | head h _ ih => exact ih (hparent h hpiece)

end SheetLint.Path
