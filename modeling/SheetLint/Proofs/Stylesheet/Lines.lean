import SheetLint.Proofs.Stylesheet.Verdict

/-!
# The lines of comments

Places only move on, so the comments of a source begin on lines that never decrease, and none ends
behind the last line of the source (`pairwise_firstLine_of_scan`, `standsWithin_of_scan`).

Both are facts about the pieces of the source, whose comments are those that the scan answers.  A
piece stands between the place where it begins and the one behind it, and the last of these places
is the end of the source, since cutting loses nothing.
-/

namespace SheetLint.Stylesheet

open Text (Place)

/-- A text leads down by as many lines as it has newlines. -/
lemma line_behind (place : Place) (text : List Char) :
    (place.behind text).line = place.line + text.count '\n' := by
  induction text generalizing place with
  | nil => rfl
  | cons c text ih =>
    have hcons : place.behind (c :: text) = (place.next c).behind text := rfl
    have hnext : (place.next c).line = place.line + if c = '\n' then 1 else 0 := by
      unfold Place.next
      split <;> rfl
    rw [hcons, ih, hnext, List.count_cons]
    simp only [beq_iff_eq]
    omega

lemma line_le_behind (place : Place) (text : List Char) :
    place.line ≤ (place.behind text).line := by
  rw [line_behind]
  exact Nat.le_add_right _ _

lemma line_le_of_mem_locate {place : Place} {ps : List Piece} {p : Place × Piece}
    (h : p ∈ locate place ps) : place.line ≤ p.1.line := by
  induction ps generalizing place with
  | nil => simp [locate] at h
  | cons piece ps ih =>
    rw [locate_cons] at h
    rcases List.mem_cons.1 h with rfl | hmem
    · exact Nat.le_refl _
    · exact Nat.le_trans (line_le_behind place piece.source) (ih hmem)

/-- The pieces of a source stand on lines that never decrease. -/
lemma pairwise_line_locate (place : Place) (ps : List Piece) :
    (locate place ps).Pairwise fun p q => p.1.line ≤ q.1.line := by
  induction ps generalizing place with
  | nil => exact List.Pairwise.nil
  | cons piece ps ih =>
    rw [locate_cons, List.pairwise_cons]
    refine ⟨?_, ih _⟩
    intro q hq
    exact Nat.le_trans (line_le_behind place piece.source) (line_le_of_mem_locate hq)

lemma behind_append (place : Place) (a b : List Char) :
    place.behind (a ++ b) = (place.behind a).behind b :=
  List.foldl_append

lemma line_behind_le_of_mem_locate {place : Place} {ps : List Piece} {p : Place × Piece}
    (h : p ∈ locate place ps) :
    (p.1.behind p.2.source).line ≤ (place.behind (ps.flatMap Piece.source)).line := by
  induction ps generalizing place with
  | nil => exact nomatch h
  | cons piece ps ih =>
    rw [locate_cons] at h
    rw [List.flatMap_cons, behind_append]
    rcases List.mem_cons.1 h with rfl | hmem
    · exact line_le_behind _ _
    · exact ih hmem

lemma firstLine_of_comment? {place : Place} {piece : Piece} {c : Comment}
    (h : piece.comment? place = some c) : c.firstLine = place.line := by
  cases piece <;> simp only [Piece.comment?, Option.some.injEq, reduceCtorEq] at h
  · rw [← h]
  · rw [← h]

/-- The comment that a piece is ends no further down than the piece. -/
lemma lastLine_of_comment? {place : Place} {piece : Piece} {c : Comment}
    (h : piece.comment? place = some c) :
    place.line ≤ c.lastLine ∧ c.lastLine ≤ (place.behind piece.source).line := by
  cases piece with
  | block text =>
    cases h
    have hsource : (Piece.block text).source = '/' :: '*' :: text ++ ['*', '/'] := rfl
    rw [hsource, behind_append]
    exact ⟨line_le_behind _ _, line_le_behind _ _⟩
  | line text =>
    cases h
    exact ⟨Nat.le_refl _, line_le_behind _ _⟩
  | quoted | escape | single | openBlock | openQuoted => exact nomatch h

/-- **Comments begin on lines that never decrease.** -/
theorem pairwise_firstLine_of_scan {d : Dialect} {text : List Char} {comments : List Comment}
    (h : scan d text = .ok comments) :
    comments.Pairwise fun a b => a.firstLine ≤ b.firstLine := by
  rw [eq_commentsOf_of_scan h, commentsOf, List.pairwise_filterMap]
  refine (pairwise_line_locate .start (cut d true text)).imp ?_
  intro p q hle a ha b hb
  rw [firstLine_of_comment? ha, firstLine_of_comment? hb]
  exact hle

/-- The comment stands on lines of a source that has so many of them. -/
structure Comment.StandsWithin (c : Comment) (lines : Nat) : Prop where
  one_le_firstLine : 1 ≤ c.firstLine
  firstLine_le_lastLine : c.firstLine ≤ c.lastLine
  lastLine_le : c.lastLine ≤ lines

/-- **Comments stand on lines of their source.** -/
theorem standsWithin_of_scan {d : Dialect} {text : List Char} {comments : List Comment}
    (h : scan d text = .ok comments) : ∀ c ∈ comments, c.StandsWithin (text.count '\n' + 1) := by
  intro c hc
  rw [eq_commentsOf_of_scan h, commentsOf, List.mem_filterMap] at hc
  obtain ⟨p, hp, hcomment⟩ := hc
  have hfirst : c.firstLine = p.1.line := firstLine_of_comment? hcomment
  have hstart : 1 ≤ p.1.line := line_le_of_mem_locate hp
  have hend := line_behind_le_of_mem_locate hp
  rw [flatMap_source_cut, line_behind .start] at hend
  obtain ⟨hle, hlast⟩ := lastLine_of_comment? hcomment
  rw [Place.start, Nat.add_comm] at hend
  exact ⟨hfirst ▸ hstart, hfirst ▸ hle, Nat.le_trans hlast hend⟩

end SheetLint.Stylesheet
