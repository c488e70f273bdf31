import Mathlib.Logic.Relation
import SheetLint.Proofs.Path.Names

/-!
# The paths around a path

Leaving out the last step of a path spells the directory around it, without a slash at its end
unless it is the root (`parent?_spelling`).  A path is around another one, `IsAncestor`, if it can
be got by leaving out last steps, one at least; these are the paths at which directories may have to
be made before a file can be written.

Of an absolute path they end with the root, of a relative one with the empty path.  Neither has a
path around it.
-/

namespace SheetLint.Path

/-- **Paths around a path.**  `dir` can be got from `path` by leaving out last steps, one at least.
-/
def IsAncestor (dir path : String) : Prop :=
  Relation.TransGen (fun dir path => parent? path = some dir) dir path

lemma not_isAncestor {dir path : String} (h : parent? path = none) : ¬ IsAncestor dir path := by
  intro hdir
  obtain ⟨next, -, hnext⟩ := Relation.TransGen.tail'_iff.mp hdir
  exact nomatch h.symm.trans hnext

/-- What is around a path is the path around it, or around that. -/
lemma IsAncestor.eq_or {dir path parent : String} (hdir : IsAncestor dir path)
    (h : parent? path = some parent) : dir = parent ∨ IsAncestor dir parent := by
  obtain ⟨next, hmore, hnext⟩ := Relation.TransGen.tail'_iff.mp hdir
  obtain rfl := Option.some.inj (h.symm.trans hnext)
  exact Relation.reflTransGen_iff_eq_or_transGen.mp hmore |>.imp_left Eq.symm

lemma mem_of_mem_trimPieces {pieces : List (List Char)} {piece : List Char}
    (h : piece ∈ trimPieces pieces) : piece ∈ pieces := by
  rw [trimPieces, List.mem_reverse] at h
  exact List.mem_reverse.mp ((List.dropWhile_sublist _).subset h)

lemma isStep_of_getLast?_trimPieces {pieces : List (List Char)} {piece : List Char}
    (h : (trimPieces pieces).getLast? = some piece) : isStep piece = true := by
  have hhead := List.head?_dropWhile_not (fun piece => !isStep piece) pieces.reverse
  rw [trimPieces, List.getLast?_reverse] at h
  rw [h] at hhead
  simpa using hhead

lemma exists_ofPieces_eq_append {pieces : List (List Char)} {piece : List Char}
    (h : pieces.getLast? = some piece) : ∃ front, (ofPieces pieces).toList = front ++ piece := by
  induction pieces with
  | nil => exact nomatch h
  | cons first pieces ih =>
    cases pieces with
    | nil =>
      obtain rfl : first = piece := Option.some.inj h
      exact ⟨[], by simp [ofPieces, List.intercalate]⟩
    | cons second pieces =>
      rw [List.getLast?_cons_cons] at h
      obtain ⟨front, hfront⟩ := ih h
      refine ⟨first ++ '/' :: front, ?_⟩
      rw [List.append_assoc, List.cons_append, ← hfront]
      simp [ofPieces, List.intercalate]

lemma not_endsInSlash_of_append {path : String} {piece : List Char}
    (h : ∃ front, path.toList = front ++ piece) (hpiece : piece ≠ []) (hslash : '/' ∉ piece) :
    ¬ EndsInSlash path := by
  obtain ⟨front, h⟩ := h
  rintro (rfl | hlast)
  · exact hpiece (List.append_eq_nil_iff.mp h.symm).2
  · obtain ⟨last, hlast'⟩ := Option.isSome_iff_exists.mp (List.getLast?_isSome.mpr hpiece)
    rw [h, List.getLast?_append, hlast', Option.some_or, Option.some.injEq] at hlast
    exact hslash (hlast ▸ List.mem_of_getLast? hlast')

lemma trimPieces_cases (pieces : List (List Char)) :
    trimPieces pieces = [] ∨
      ∃ piece ∈ pieces, piece ≠ [] ∧ (trimPieces pieces).getLast? = some piece := by
  by_cases hnone : trimPieces pieces = []
  · exact Or.inl hnone
  · obtain ⟨piece, hlast⟩ := Option.isSome_iff_exists.mp (List.getLast?_isSome.mpr hnone)
    refine Or.inr ⟨piece, mem_of_mem_trimPieces (List.mem_of_getLast? hlast), ?_, hlast⟩
    rintro rfl
    exact nomatch isStep_of_getLast?_trimPieces hlast

/-- **How a path around another one is spelled.** -/
lemma parent?_spelling {path dir : String} (h : parent? path = some dir) :
    dir = "" ∨ dir = "/" ∨ ¬ EndsInSlash dir := by
  have hslash : ∀ piece ∈ Text.pieces '/' path.toList, '/' ∉ piece :=
    fun piece hpiece => (mem_pieces hpiece).1
  unfold parent? at h
  split at h
  · exact nomatch h
  next front rest hpieces =>
  rw [hpieces, List.forall_mem_cons] at hslash
  have hinner : ∀ piece ∈ (trimPieces rest).dropLast, '/' ∉ piece := fun piece hpiece =>
    hslash.2 piece (mem_of_mem_trimPieces (List.dropLast_subset _ hpiece))
  have hcases := trimPieces_cases (trimPieces rest).dropLast
  generalize trimPieces rest = steps at h hinner hcases
  -- The cases are those of `parent?`: whether the path is absolute (an empty first piece), and
  -- whether a step is left besides the first piece.
  match steps, front with
  | [], [] => exact nomatch h
  | [], c :: front => exact Or.inl (Option.some.inj h).symm
  | step :: steps, [] =>
    obtain rfl := Option.some.inj h
    right
    rcases hcases with hnone | ⟨piece, hmem, hne, hlast⟩
    · left
      rw [hnone]
      rfl
    · right
      obtain ⟨before, hbefore⟩ := exists_ofPieces_eq_append hlast
      -- the spelling ends with the last step that is left, which is a piece and so has no slash
      exact not_endsInSlash_of_append
        ⟨'/' :: before, by rw [String.toList_append, hbefore]; rfl⟩ hne (hinner piece hmem)
  | step :: steps, c :: front =>
    obtain rfl := Option.some.inj h
    right; right
    rcases hcases with hnone | ⟨piece, hmem, hne, hlast⟩
    · rw [hnone]
      exact not_endsInSlash_of_append (exists_ofPieces_eq_append rfl) (List.cons_ne_nil c front)
        hslash.1
    · have hlast' :
          ((c :: front) :: trimPieces (step :: steps).dropLast).getLast? = some piece := by
        rw [List.getLast?_cons, hlast]
        rfl
      exact not_endsInSlash_of_append (exists_ofPieces_eq_append hlast') hne (hinner piece hmem)

lemma spelling_of_isAncestor {dir path : String} (h : IsAncestor dir path) :
    dir = "" ∨ dir = "/" ∨ ¬ EndsInSlash dir := by
  obtain ⟨next, hparent, -⟩ := Relation.TransGen.head'_iff.mp h
  exact parent?_spelling hparent

end SheetLint.Path
