import SheetLint.Proofs.Stylesheet.Braces

/-!
# What a scan answers

The answer of a scan is the verdict on the pieces of its source: `scan_eq_iff_verdict`.  The verdict
is said without order of evaluation.  A source is accepted with the comments among its pieces if all
pieces end and the braces match; else one piece is named such that nothing has gone wrong before it
(`IsFine`).

A comment or a string that does not end is wrong where it begins.  A closing brace is wrong if as
many blocks have been closed before it as have been opened.  An open block is wrong only if nothing
else is, and the innermost one is named: the one behind whose brace the braces match.

Every list of pieces has a verdict (`exists_verdict`), and judging the pieces one by one comes to it
(`Verdict.judge_eq`); so there is one verdict only, and it is the answer.

Braces are ordinary characters in Sass, where blocks are given by indentation, and count in all
other dialects.
-/

namespace SheetLint.Stylesheet

open Text (Place)

variable {d : Dialect}

/-- Nothing has gone wrong up to the end of the pieces: every piece ends, and every closing brace
has a block to close. -/
structure IsFine (d : Dialect) (ps : List (Place × Piece)) : Prop where
  closed : ∀ p ∈ ps, p.2.IsClosed
  neverBelow : d ≠ .sass → NeverBelow 0 ps

/-- **What pieces say about their source.**  It has its comments if all pieces end and, unless
braces are ordinary characters, the braces match.  Else it is malformed at the first piece that
goes wrong; or, if none does, at the innermost block that stays open. -/
inductive Verdict (d : Dialect) (ps : List (Place × Piece)) :
    Except Malformed (List Comment) → Prop where
  | comments (closed : ∀ p ∈ ps, p.2.IsClosed) (balanced : d ≠ .sass → Balanced ps) :
    Verdict d ps (.ok (commentsOf ps))
  | unclosedComment {front rest : List (Place × Piece)} {place : Place} {text : List Char}
    (split : ps = front ++ (place, .openBlock text) :: rest) (fine : IsFine d front) :
    Verdict d ps (.error ⟨.unclosedComment, place⟩)
  | unclosedString {front rest : List (Place × Piece)} {place : Place} {quote : Char}
    {text : List Char} (split : ps = front ++ (place, .openQuoted quote text) :: rest)
    (fine : IsFine d front) : Verdict d ps (.error ⟨.unclosedString, place⟩)
  | unexpectedBrace {front rest : List (Place × Piece)} {place : Place}
    (hasBraces : d ≠ .sass) (split : ps = front ++ (place, .single '\x7d') :: rest)
    (fine : IsFine d front) (noneOpen : opens front = closes front) :
    Verdict d ps (.error ⟨.unexpectedBrace, place⟩)
  | unclosedBlock {front rest : List (Place × Piece)} {place : Place}
    (hasBraces : d ≠ .sass) (split : ps = front ++ (place, .single '\x7b') :: rest)
    (fine : IsFine d ps) (balanced : Balanced rest) :
    Verdict d ps (.error ⟨.unclosedBlock, place⟩)

lemma IsFine.judge_append {front : List (Place × Piece)} (h : IsFine d front)
    (rest : List (Place × Piece)) :
    judge d [] [] (front ++ rest) =
      judge d (openAfter d [] front) (commentsOf front).reverse rest := by
  have hbelow : d.hasBraces = true → NeverBelow 0 front :=
    fun hd => h.neverBelow ((hasBraces_iff d).mp hd)
  rw [Stylesheet.judge_append [] [] front rest h.closed hbelow, List.append_nil]

lemma openAfter_eq_nil (hd : d ≠ .sass) {ps : List (Place × Piece)}
    (h : NeverBelow 0 ps) (hcount : opens ps = closes ps) : openAfter d [] ps = [] := by
  have hlength := length_openAfter ((hasBraces_iff d).mpr hd) [] ps h
  rw [List.length_nil] at hlength
  exact List.eq_nil_of_length_eq_zero (by omega)

/-- A verdict is what judging comes to. -/
lemma Verdict.judge_eq {ps : List (Place × Piece)} {r : Except Malformed (List Comment)}
    (h : Verdict d ps r) : judge d [] [] ps = r := by
  cases h with
  | comments closed balanced =>
    have hopen : openAfter d [] ps = [] := by
      by_cases hd : d = .sass
      · exact openAfter_of_not_hasBraces (by simp [hd, Dialect.hasBraces]) [] ps
      · exact openAfter_eq_nil hd (balanced hd).1 (balanced hd).2
    have hfine : IsFine d ps := ⟨closed, fun hd => (balanced hd).1⟩
    have hjudge := hfine.judge_append []
    rw [List.append_nil, hopen, judge_nil, List.reverse_reverse] at hjudge
    exact hjudge
  | unclosedComment split fine =>
    rw [split, fine.judge_append, judge]
  | unclosedString split fine =>
    rw [split, fine.judge_append, judge]
  | unexpectedBrace hd split fine noneOpen =>
    rw [split, fine.judge_append, openAfter_eq_nil hd (fine.neverBelow hd) noneOpen, judge_single,
      if_neg (by simp), if_pos ⟨rfl, (hasBraces_iff d).mpr hd⟩]
  | @unclosedBlock front rest place hd split fine balanced =>
    have hbraces := (hasBraces_iff d).mpr hd
    have hrest : openAfter d [] rest = [] := openAfter_eq_nil hd balanced.1 balanced.2
    have hopen : openAfter d [] ps = place :: openAfter d [] front := by
      rw [split, openAfter_append, openAfter_open _ _ _ hbraces]
      -- the blocks that are open in front stay open, as those behind the brace match
      have hkeep :=
        openAfter_append_blocks hbraces [] (place :: openAfter d [] front) rest balanced.1
      rw [List.nil_append, hrest, List.nil_append] at hkeep
      exact hkeep
    have hjudge := fine.judge_append []
    rw [List.append_nil, hopen, judge_nil] at hjudge
    exact hjudge

lemma exists_closed_front (ps : List (Place × Piece)) :
    (∀ p ∈ ps, p.2.IsClosed) ∨
      ∃ front p rest, ps = front ++ p :: rest ∧ (∀ p ∈ front, p.2.IsClosed) ∧ ¬ p.2.IsClosed := by
  induction ps with
  | nil => exact Or.inl (by simp)
  | cons p ps ih =>
    by_cases hp : p.2.IsClosed
    · rcases ih with hall | ⟨front, q, rest, rfl, hfront, hq⟩
      · refine Or.inl ?_
        intro q hq
        rcases List.mem_cons.1 hq with rfl | hmem
        · exact hp
        · exact hall q hmem
      · refine Or.inr ⟨p :: front, q, rest, rfl, ?_, hq⟩
        intro r hr
        rcases List.mem_cons.1 hr with rfl | hmem
        · exact hp
        · exact hfront r hmem
    · exact Or.inr ⟨[], p, ps, rfl, by simp, hp⟩

/-- A closing brace without a block is the verdict, if all pieces before some end. -/
lemma Verdict.of_not_neverBelow {front : List (Place × Piece)} (hd : d ≠ .sass)
    (hclosed : ∀ p ∈ front, p.2.IsClosed) (h : ¬ NeverBelow 0 front)
    (rest : List (Place × Piece)) : ∃ r, Verdict d (front ++ rest) r := by
  obtain ⟨before, place, behind, rfl, hbelow, hcount⟩ := exists_of_not_neverBelow h
  have hfine : IsFine d before := ⟨fun p hp => hclosed p (by simp [hp]), fun _ => hbelow⟩
  exact ⟨_, .unexpectedBrace hd (List.append_assoc _ _ _) hfine (by omega)⟩

/-- **There is always a verdict.** -/
lemma exists_verdict (d : Dialect) (ps : List (Place × Piece)) : ∃ r, Verdict d ps r := by
  -- Either all pieces end, and braces decide, or there is a first one that does not.
  rcases exists_closed_front ps with hclosed | ⟨front, ⟨place, piece⟩, rest, rfl, hclosed, hopen⟩
  · by_cases hd : d = .sass
    · exact ⟨_, .comments hclosed fun h => absurd hd h⟩
    · have hbraces := (hasBraces_iff d).mpr hd
      by_cases hbelow : NeverBelow 0 ps
      · by_cases hcount : opens ps = closes ps
        · exact ⟨_, .comments hclosed fun _ => ⟨hbelow, hcount⟩⟩
        · have hlength := length_openAfter hbraces [] ps hbelow
          cases hblocks : openAfter d [] ps with
          | nil =>
            rw [hblocks, List.length_nil] at hlength
            exact absurd (by omega) hcount
          | cons innermost outer =>
            obtain ⟨front, rest, hsplit, hrest, hrestCount⟩ :=
              exists_of_openAfter hbraces [] hblocks
            exact ⟨_, .unclosedBlock hd hsplit ⟨hclosed, fun _ => hbelow⟩ ⟨hrest, hrestCount⟩⟩
      · have hverdict := Verdict.of_not_neverBelow hd hclosed hbelow []
        rwa [List.append_nil] at hverdict
  · by_cases hbelow : d ≠ .sass → NeverBelow 0 front
    · cases piece with
      | openBlock text => exact ⟨_, .unclosedComment rfl ⟨hclosed, hbelow⟩⟩
      | openQuoted quote text => exact ⟨_, .unclosedString rfl ⟨hclosed, hbelow⟩⟩
      | block _ | line _ | quoted _ _ | escape _ | single _ =>
        exact absurd trivial hopen
    · obtain ⟨hd, hnot⟩ := Classical.not_imp.1 hbelow
      exact Verdict.of_not_neverBelow hd hclosed hnot _

lemma scan_eq_judge (d : Dialect) (text : List Char) :
    scan d text = judge d [] [] (pieces d text) :=
  outcome_eq_judge true text .start ' ' admitsLineComment_blank [] []

/-- The comments of an accepted source are those among its pieces. -/
lemma eq_commentsOf_of_scan {text : List Char} {comments : List Comment}
    (h : scan d text = .ok comments) : comments = commentsOf (pieces d text) := by
  obtain ⟨r, hr⟩ := exists_verdict d (pieces d text)
  have hsame : r = .ok comments := by rw [← hr.judge_eq, ← scan_eq_judge, h]
  subst hsame
  cases hr with
  | comments closed balanced => rfl

/-- **The scan is right.**  It answers with the verdict on the pieces of the source, which is one:
the comments of a source whose pieces all end and whose braces match, and otherwise the first
thing that goes wrong, where it does. -/
theorem scan_eq_iff_verdict (d : Dialect) (text : List Char)
    (r : Except Malformed (List Comment)) : scan d text = r ↔ Verdict d (pieces d text) r := by
  constructor
  · intro h
    obtain ⟨r', hr'⟩ := exists_verdict d (pieces d text)
    have hsame : r' = r := by rw [← hr'.judge_eq, ← scan_eq_judge, h]
    exact hsame ▸ hr'
  · intro h
    rw [scan_eq_judge, h.judge_eq]

/-- Two slashes open a comment in SCSS and not in plain CSS, where the brace behind them closes the
block, so that the next one has none to close. -/
theorem scan_eq_iff_verdict_slashes :
    Verdict .scss (pieces .scss "\x7b//\x7d\n\x7d".toList) (.ok [⟨['\x7d'], 1, 1⟩]) ∧
      Verdict .css (pieces .css "\x7b//\x7d\n\x7d".toList) (.error ⟨.unexpectedBrace, ⟨2, 1⟩⟩) :=
  ⟨(scan_eq_iff_verdict .scss _ _).mp (by decide), (scan_eq_iff_verdict .css _ _).mp (by decide)⟩

end SheetLint.Stylesheet
