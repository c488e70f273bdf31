import SheetLint.Proofs.Stylesheet.Pieces

/-!
# The scan finds what the pieces show

The scan reads one character at a time, and the pieces are cut by looking ahead.  What both make of
the rest of a source is the same, whatever is open and has been met before (`outcome_eq_judge`).  By
induction along the cut this comes down to one statement for each way in which a piece can begin:
the scan goes to the mode of the piece, stays in it up to the end of the piece, and is then where
the next piece begins.

For comments and strings these statements are by induction on the text, and match what is found by
looking for the end (`outcome_inBlock`, `outcome_inLine`, `outcome_quoted`).  A slash is the one
character that the scan cannot place when it reads it; if no comment begins, it was an ordinary one
(`outcome_slash`).

Judging pieces is done here from the front, with the open blocks and the comments met so far, since
that is what the scan has at any point.  What it comes to for all pieces is said elsewhere without
an order.

The characters behind which a line comment can begin are compared here, and so are the dialects that
have line comments and those that have braces (`admitsLine_single`, `hasLineComments_iff`,
`hasBraces_iff`).
-/

namespace SheetLint.Stylesheet

open Text (Place)

variable {d : Dialect}

/-! ## The scan reads pieces -/

/-- What a scan makes of the rest of a source. -/
def outcome (d : Dialect) (s : State) (text : List Char) : Except Malformed (List Comment) :=
  (scanFrom d s text).bind State.finish

lemma outcome_nil (s : State) : outcome d s [] = s.finish := rfl

lemma outcome_cons (s : State) (c : Char) (rest : List Char) :
    outcome d s (c :: rest) = (s.step d c).bind fun t => outcome d t rest := by
  unfold outcome scanFrom
  rw [List.foldlM_cons]
  cases s.step d c <;> rfl

lemma outcome_cons_of_step {s t : State} {c : Char} (h : s.step d c = .ok t) (rest : List Char) :
    outcome d s (c :: rest) = outcome d t rest := by
  rw [outcome_cons, h]
  rfl

/-- What the pieces of the rest of a source amount to, when `blocks` are open and `comments` have
been met. -/
def judge (d : Dialect) (blocks : List Place) (comments : List Comment) :
    List (Place × Piece) → Except Malformed (List Comment)
  | [] =>
    match blocks with
    | [] => .ok comments.reverse
    | innermost :: _ => .error ⟨.unclosedBlock, innermost⟩
  | (place, piece) :: rest =>
    match piece with
    | .openBlock _ => .error ⟨.unclosedComment, place⟩
    | .openQuoted .. => .error ⟨.unclosedString, place⟩
    | .single c =>
      if c = '\x7b' ∧ d.hasBraces then judge d (place :: blocks) comments rest
      else if c = '\x7d' ∧ d.hasBraces then
        match blocks with
        | [] => .error ⟨.unexpectedBrace, place⟩
        | _ :: outer => judge d outer comments rest
      else judge d blocks comments rest
    | .block _ | .line _ | .quoted .. | .escape _ =>
      judge d blocks ((piece.comment? place).toList ++ comments) rest

section Modes

variable (place opened : Place) (blocks : List Place) (comments : List Comment)

/-- Behind a star that no slash follows, the star belongs to the comment. -/
lemma outcome_starInBlock (read rest : List Char) (h : rest.head? ≠ some '/') :
    outcome d ⟨place, .starInBlock opened read, blocks, comments⟩ rest =
      outcome d ⟨place, .inBlock opened ('*' :: read), blocks, comments⟩ rest := by
  cases rest with
  | nil => rfl
  | cons c rest =>
    have hc : c ≠ '/' := by simpa using h
    rw [outcome_cons, outcome_cons]
    by_cases hstar : c = '*' <;> simp [State.step, State.advance, hc, hstar]

lemma outcome_inBlock (read rest : List Char) :
    outcome d ⟨place, .inBlock opened read, blocks, comments⟩ rest =
      match blockEnd? rest with
      | some (inside, behind) =>
        outcome d ⟨place.behind (inside ++ ['*', '/']), .plain ' ', blocks,
          ⟨read.reverse ++ inside, opened.line, (place.behind inside).line⟩ :: comments⟩ behind
      | none => .error ⟨.unclosedComment, opened⟩ := by
  induction rest generalizing place read with
  | nil => rfl
  | cons c rest ih =>
    -- A star ends the comment if a slash follows, and is read as text otherwise.
    by_cases hc : c = '*'
    · subst hc
      have hstep : State.step d ⟨place, .inBlock opened read, blocks, comments⟩ '*' =
          .ok ⟨place.next '*', .starInBlock opened read, blocks, comments⟩ := rfl
      rw [outcome_cons_of_step hstep]
      by_cases hslash : rest.head? = some '/'
      · obtain ⟨behind, rfl⟩ := List.head?_eq_some_iff.1 hslash
        have hend : State.step d ⟨place.next '*', .starInBlock opened read, blocks, comments⟩ '/' =
            .ok ⟨(place.next '*').next '/', .plain ' ', blocks,
              ⟨read.reverse, opened.line, (place.next '*').line⟩ :: comments⟩ := rfl
        rw [outcome_cons_of_step hend]
        have hline : (place.next '*').line = place.line := by simp [Place.next]
        simp [blockEnd?, Place.behind, hline]
      · rw [outcome_starInBlock _ _ _ _ _ _ hslash, ih, blockEnd?_cons (by simp [hslash])]
        cases hrest : blockEnd? rest with
        | none => simp
        | some pair => simp [Place.behind]
    · have hstep : State.step d ⟨place, .inBlock opened read, blocks, comments⟩ c =
          .ok ⟨place.next c, .inBlock opened (c :: read), blocks, comments⟩ := by
        simp [State.step, State.advance, hc]
      rw [outcome_cons_of_step hstep, ih, blockEnd?_cons (by simp [hc])]
      cases hrest : blockEnd? rest with
      | none => simp
      | some pair => simp [Place.behind]

lemma outcome_inLine (line : Nat) (read rest : List Char) :
    outcome d ⟨place, .inLine line read, blocks, comments⟩ rest =
      outcome d ⟨place.behind (rest.takeWhile (· != '\n')), .plain ' ', blocks,
        ⟨read.reverse ++ rest.takeWhile (· != '\n'), line, line⟩ :: comments⟩
        (rest.dropWhile (· != '\n')) := by
  induction rest generalizing place read with
  | nil =>
    simp [outcome_nil, State.finish, State.finish.close]
  | cons c rest ih =>
    by_cases hc : c = '\n'
    · subst hc
      have htake : ('\n' :: rest).takeWhile (· != '\n') = [] := by simp
      have hdrop : ('\n' :: rest).dropWhile (· != '\n') = '\n' :: rest := by simp
      rw [htake, hdrop, List.append_nil]
      rw [outcome_cons, outcome_cons]
      rfl
    · have hstep : State.step d ⟨place, .inLine line read, blocks, comments⟩ c =
          .ok ⟨place.next c, .inLine line (c :: read), blocks, comments⟩ := by
        simp [State.step, State.advance, hc]
      have htake : (c :: rest).takeWhile (· != '\n') = c :: rest.takeWhile (· != '\n') := by
        simp [hc]
      have hdrop : (c :: rest).dropWhile (· != '\n') = rest.dropWhile (· != '\n') := by
        simp [hc]
      rw [outcome_cons_of_step hstep, ih, htake, hdrop]
      simp [Place.behind]

lemma outcome_quoted (quote : Char) (hquote : quote ≠ '\\') (escaped : Bool) (rest : List Char) :
    outcome d ⟨place, if escaped then .quotedEscape quote opened else .quoted quote opened, blocks,
        comments⟩ rest =
      match quoteEnd? quote escaped rest with
      | some (inside, behind) =>
        outcome d ⟨place.behind (inside ++ [quote]), .plain quote, blocks, comments⟩ behind
      | none => .error ⟨.unclosedString, opened⟩ := by
  induction rest generalizing place escaped with
  | nil => cases escaped <;> rfl
  | cons c rest ih =>
    by_cases hend : c = quote ∧ (!escaped) = true
    · obtain ⟨rfl, hescaped⟩ := hend
      have hfalse : escaped = false := by simpa using hescaped
      subst hfalse
      have hstep : State.step d ⟨place, .quoted c opened, blocks, comments⟩ c =
          .ok ⟨place.next c, .plain c, blocks, comments⟩ := by
        simp [State.step, State.advance, hquote]
      simp only [Bool.false_eq_true, if_false]
      rw [outcome_cons_of_step hstep]
      simp [quoteEnd?, Place.behind]
    -- the mode behind `c` remembers a backslash just as the search for the quote does
    · have hstep : State.step d ⟨place, if escaped then .quotedEscape quote opened
          else .quoted quote opened, blocks, comments⟩ c =
          .ok ⟨place.next c, if c == '\\' && !escaped then .quotedEscape quote opened
            else .quoted quote opened, blocks, comments⟩ := by
        cases escaped with
        | true => simp [State.step, State.advance]
        | false =>
          by_cases hslash : c = '\\'
          · simp [State.step, State.advance, hslash]
          · have hne : c ≠ quote := by simpa using hend
            simp [State.step, State.advance, hslash, hne]
      rw [outcome_cons_of_step hstep, ih, quoteEnd?_cons hend]
      cases hrest : quoteEnd? quote (c == '\\' && !escaped) rest with
      | none => simp
      | some pair => simp [Place.behind]

/-- Behind a slash that opens no comment, the scan is as behind any character. -/
lemma outcome_slash (before : Char) (slashAt : Place) (rest : List Char)
    (hblock : rest.head? ≠ some '*')
    (hline : ¬ (rest.head? = some '/' ∧ d.hasLineComments = true ∧
      admitsLineComment before = true)) :
    outcome d ⟨place, .slash before slashAt, blocks, comments⟩ rest =
      outcome d ⟨place, .plain '/', blocks, comments⟩ rest := by
  cases rest with
  | nil => rfl
  | cons c rest =>
    have hstar : c ≠ '*' := by simpa using hblock
    have hslash : ¬ (c = '/' ∧ d.hasLineComments = true ∧ admitsLineComment before = true) := by
      simpa using hline
    rw [outcome_cons, outcome_cons]
    simp only [State.step, hstar, hslash, if_false]
    rfl

end Modes

/-! ## What is asked of characters and dialects -/

lemma admitsLine_single (c : Char) : (Piece.single c).admitsLine = admitsLineComment c := by
  rw [Bool.eq_iff_iff]
  simp [Piece.admitsLine, admitsLineComment, or_assoc]

lemma hasLineComments_iff (d : Dialect) :
    d.hasLineComments = true ↔ d = .scss ∨ d = .less ∨ d = .sass := by
  cases d <;> decide

lemma hasBraces_iff (d : Dialect) : d.hasBraces = true ↔ d ≠ .sass := by
  cases d <;> decide

lemma admitsLineComment_blank : admitsLineComment ' ' = true := by decide

lemma admitsLineComment_quote {c : Char} (h : c = '\x22' ∨ c = '\x27') :
    admitsLineComment c = false := by
  rcases h with rfl | rfl <;> decide

lemma locate_cons (place : Place) (piece : Piece) (rest : List Piece) :
    locate place (piece :: rest) = (place, piece) :: locate (place.behind piece.source) rest := rfl

section Steps

variable (place : Place) (before : Char) (blocks : List Place) (comments : List Comment)

lemma outcome_openBlock (rest : List Char) :
    outcome d ⟨place, .plain before, blocks, comments⟩ ('/' :: '*' :: rest) =
      outcome d ⟨place.behind ['/', '*'], .inBlock place [], blocks, comments⟩ rest := by
  have hslash : State.step d ⟨place, .plain before, blocks, comments⟩ '/' =
      .ok ⟨place.next '/', .slash before place, blocks, comments⟩ := rfl
  have hstar : State.step d ⟨place.next '/', .slash before place, blocks, comments⟩ '*' =
      .ok ⟨(place.next '/').next '*', .inBlock place [], blocks, comments⟩ := rfl
  rw [outcome_cons_of_step hslash, outcome_cons_of_step hstar]
  rfl

/-- Two slashes open a line comment where one can begin. -/
lemma outcome_openLine (hline : d.hasLineComments = true)
    (hbefore : admitsLineComment before = true) (rest : List Char) :
    outcome d ⟨place, .plain before, blocks, comments⟩ ('/' :: '/' :: rest) =
      outcome d ⟨place.behind ['/', '/'], .inLine place.line [], blocks, comments⟩ rest := by
  have hslash : State.step d ⟨place, .plain before, blocks, comments⟩ '/' =
      .ok ⟨place.next '/', .slash before place, blocks, comments⟩ := rfl
  have hopen : State.step d ⟨place.next '/', .slash before place, blocks, comments⟩ '/' =
      .ok ⟨(place.next '/').next '/', .inLine place.line [], blocks, comments⟩ := by
    simp [State.step, State.advance, hline, hbefore]
  rw [outcome_cons_of_step hslash, outcome_cons_of_step hopen]
  rfl

lemma outcome_openQuoted {c : Char} (hc : c = '\x22' ∨ c = '\x27') (rest : List Char) :
    outcome d ⟨place, .plain before, blocks, comments⟩ (c :: rest) =
      outcome d ⟨place.next c, .quoted c place, blocks, comments⟩ rest := by
  have hstep : State.step d ⟨place, .plain before, blocks, comments⟩ c =
      .ok ⟨place.next c, .quoted c place, blocks, comments⟩ := by
    rcases hc with rfl | rfl <;> rfl
  exact outcome_cons_of_step hstep rest

lemma outcome_backslash (rest : List Char) :
    outcome d ⟨place, .plain before, blocks, comments⟩ ('\\' :: rest) =
      outcome d ⟨place.behind ('\\' :: rest.head?.toList), .plain '\\', blocks, comments⟩
        rest.tail := by
  have hstep : State.step d ⟨place, .plain before, blocks, comments⟩ '\\' =
      .ok ⟨place.next '\\', .escape, blocks, comments⟩ := rfl
  rw [outcome_cons_of_step hstep]
  cases rest with
  | nil => rfl
  | cons c rest =>
    have hescaped : State.step d ⟨place.next '\\', .escape, blocks, comments⟩ c =
        .ok ⟨(place.next '\\').next c, .plain '\\', blocks, comments⟩ := rfl
    rw [outcome_cons_of_step hescaped]
    rfl

/-- A character that opens nothing is read alone. -/
lemma outcome_single {c : Char} {rest : List Char}
    (hblock : ¬ (c = '/' ∧ rest.head? = some '*'))
    (hline : ¬ (c = '/' ∧ rest.head? = some '/' ∧ d.hasLineComments = true ∧
      admitsLineComment before = true))
    (hquote : ¬ (c = '\x22' ∨ c = '\x27')) (hescape : c ≠ '\\') :
    outcome d ⟨place, .plain before, blocks, comments⟩ (c :: rest) =
      if c = '\x7b' ∧ d.hasBraces then
        outcome d ⟨place.next c, .plain c, place :: blocks, comments⟩ rest
      else if c = '\x7d' ∧ d.hasBraces then
        match blocks with
        | [] => .error ⟨.unexpectedBrace, place⟩
        | _ :: outer => outcome d ⟨place.next c, .plain c, outer, comments⟩ rest
      else outcome d ⟨place.next c, .plain c, blocks, comments⟩ rest := by
  by_cases hslash : c = '/'
  · subst hslash
    have hstep : State.step d ⟨place, .plain before, blocks, comments⟩ '/' =
        .ok ⟨place.next '/', .slash before place, blocks, comments⟩ := rfl
    rw [outcome_cons_of_step hstep, outcome_slash]
    · rw [if_neg (by simp), if_neg (by simp)]
    · simpa using hblock
    · simpa using hline
  · have hstep : State.step d ⟨place, .plain before, blocks, comments⟩ c =
        State.stepPlain d ⟨place, .plain before, blocks, comments⟩ before c := rfl
    rw [outcome_cons, hstep, State.stepPlain, if_neg hslash, if_neg hescape, if_neg hquote]
    split
    · rfl
    · split
      · cases blocks <;> rfl
      · rfl

end Steps

lemma judge_nil (blocks : List Place) (comments : List Comment) :
    judge d blocks comments [] =
      match blocks with
      | [] => .ok comments.reverse
      | innermost :: _ => .error ⟨.unclosedBlock, innermost⟩ := by
  cases blocks <;> rfl

lemma judge_single (place : Place) (blocks : List Place) (comments : List Comment) (c : Char)
    (rest : List (Place × Piece)) :
    judge d blocks comments ((place, .single c) :: rest) =
      if c = '\x7b' ∧ d.hasBraces then judge d (place :: blocks) comments rest
      else if c = '\x7d' ∧ d.hasBraces then
        match blocks with
        | [] => .error ⟨.unexpectedBrace, place⟩
        | _ :: outer => judge d outer comments rest
      else judge d blocks comments rest := by
  cases blocks <;> rfl

/-- **The scan reads pieces.**  By induction along the cut: what a scan makes of a source is what
its pieces amount to. -/
theorem outcome_eq_judge (mayOpen : Bool) (text : List Char) (place : Place) (before : Char)
    (hbefore : admitsLineComment before = mayOpen) (blocks : List Place)
    (comments : List Comment) :
    outcome d ⟨place, .plain before, blocks, comments⟩ text =
      judge d blocks comments (locate place (cut d mayOpen text)) := by
  -- The cases are: the end, block comments that end or do not, line comments, strings that end or
  -- do not, escapes, and single characters.
  fun_induction cut d mayOpen text generalizing place before blocks comments with
  | case1 =>
    rw [outcome_nil, locate, judge_nil]
    rfl
  | case2 mayOpen c rest hopen inside behind h ih =>
    obtain ⟨rfl, hstar⟩ := hopen
    obtain ⟨tail, rfl⟩ := List.head?_eq_some_iff.1 hstar
    simp only [List.tail_cons] at h
    rw [outcome_openBlock, outcome_inBlock]
    simp only [h]
    rw [ih _ _ admitsLineComment_blank, locate_cons, judge]
    rfl
  | case3 mayOpen c rest hopen h =>
    obtain ⟨rfl, hstar⟩ := hopen
    obtain ⟨tail, rfl⟩ := List.head?_eq_some_iff.1 hstar
    simp only [List.tail_cons] at h
    rw [outcome_openBlock, outcome_inBlock]
    simp only [h]
    rw [locate_cons, judge]
  | case4 mayOpen c rest hblock hopen inside ih =>
    obtain ⟨rfl, hslash, hline, hmay⟩ := hopen
    obtain ⟨tail, rfl⟩ := List.head?_eq_some_iff.1 hslash
    rw [outcome_openLine _ _ _ _ ((hasLineComments_iff d).mpr hline) (hbefore.trans hmay),
      outcome_inLine]
    simp only [List.tail_cons] at ih ⊢
    rw [ih _ _ admitsLineComment_blank, locate_cons, judge]
    rfl
  | case5 mayOpen c rest hblock hline hquote inside behind h ih =>
    have hquoted := outcome_quoted (d := d) (place.next c) place blocks comments c
      (by rcases hquote with rfl | rfl <;> decide) false rest
    simp only [h, Bool.false_eq_true, if_false] at hquoted
    rw [outcome_openQuoted _ _ _ _ hquote, hquoted, ih _ _ (admitsLineComment_quote hquote),
      locate_cons, judge]
    rfl
  | case6 mayOpen c rest hblock hline hquote h =>
    have hquoted := outcome_quoted (d := d) (place.next c) place blocks comments c
      (by rcases hquote with rfl | rfl <;> decide) false rest
    simp only [h, Bool.false_eq_true, if_false] at hquoted
    rw [outcome_openQuoted _ _ _ _ hquote, hquoted, locate_cons, judge]
  | case7 mayOpen rest hblock hline hquote ih =>
    rw [outcome_backslash, ih _ '\\' rfl, locate_cons, judge]
    rfl
  | case8 mayOpen c rest hblock hline hquote hescape ih =>
    rw [outcome_single _ _ _ _ hblock (by rwa [hbefore, hasLineComments_iff]) hquote hescape,
      locate_cons, judge_single]
    simp only [ih _ c (admitsLine_single c).symm]
    rfl

end SheetLint.Stylesheet
