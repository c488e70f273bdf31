import SheetLint.Proofs.Except
import SheetLint.Proofs.Stylesheet.Lines

/-!
# Scanning two texts in a row

Behind an accepted text that ends with a line, a scan is as at the start of a source, but for the
line: it is outside of comments, strings and blocks, and a line comment can begin
(`State.eq_of_step_newline`).  So the text that follows is scanned as a source of its own, some
lines further down: `scan_append`.

A newline behind a backslash does not end a line in this sense, since it may be escaped, and no line
comment begins behind an escape.  That is said of the text itself, `EndsLine`, without asking where
the scan stands.

The second text need not be accepted.  A defect in it is found at the place where it is found in the
text alone, moved down, and the comments in front of it are no part of the answer then
(`answerBelow`).

Moving down commutes with everything that places go through: reading on, locating pieces, and
judging them (`judge_down`).
-/

namespace SheetLint

open Text (Place)

/-- The place in the same column, some lines further down. -/
def Text.Place.down (p : Place) (lines : Nat) : Place := ⟨p.line + lines, p.column⟩

namespace Stylesheet

variable {d : Dialect}

/-- The comment some lines further down. -/
def Comment.down (c : Comment) (lines : Nat) : Comment :=
  ⟨c.text, c.firstLine + lines, c.lastLine + lines⟩

/-- The same defect some lines further down. -/
def Malformed.down (m : Malformed) (lines : Nat) : Malformed := ⟨m.defect, m.place.down lines⟩

/-- What a scan answers behind a text with the comments `earlier`, some lines further down. -/
def answerBelow (earlier : List Comment) (lines : Nat) :
    Except Malformed (List Comment) → Except Malformed (List Comment)
  | .ok later => .ok (earlier ++ later.map (·.down lines))
  | .error m => .error (m.down lines)

/-- The text ends with a line.  The newline at its end must not be escaped. -/
def EndsLine (text : List Char) : Prop :=
  text = [] ∨ ∃ front, text = front ++ ['\n'] ∧ front.getLast? ≠ some '\\'

/-! ### Further down -/

section

variable (p : Place) (lines : Nat)

lemma next_down (c : Char) : (p.down lines).next c = (p.next c).down lines := by
  unfold Place.next Place.down
  split
  · simp only [Place.mk.injEq, and_true]
    omega
  · rfl

lemma behind_down (text : List Char) :
    (p.down lines).behind text = (p.behind text).down lines := by
  induction text generalizing p with
  | nil => rfl
  | cons c text ih =>
    have hcons (q : Place) : q.behind (c :: text) = (q.next c).behind text := rfl
    rw [hcons, hcons, next_down, ih]

lemma comment?_down (piece : Piece) :
    piece.comment? (p.down lines) = (piece.comment? p).map (·.down lines) := by
  cases piece with
  | block text =>
    rw [Piece.comment?, Piece.comment?, behind_down]
    rfl
  | line | quoted | escape | single | openBlock | openQuoted => rfl

lemma locate_down (pieces : List Piece) :
    locate (p.down lines) pieces = (locate p pieces).map fun q => (q.1.down lines, q.2) := by
  induction pieces generalizing p with
  | nil => rfl
  | cons piece pieces ih => rw [locate_cons, locate_cons, behind_down, ih, List.map_cons]

end

/-- **Judging further down.**  The same pieces some lines further down, with `earlier` comments
before them, come to the same, that far down and behind those comments. -/
lemma judge_down (earlier : List Comment) (lines : Nat) (blocks : List Place)
    (later : List Comment) (ps : List (Place × Piece)) :
    judge d (blocks.map (·.down lines)) (later.map (·.down lines) ++ earlier.reverse)
        (ps.map fun p => (p.1.down lines, p.2)) =
      answerBelow earlier lines (judge d blocks later ps) := by
  induction ps generalizing blocks later with
  | nil =>
    rw [List.map_nil, judge_nil, judge_nil]
    cases blocks with
    | nil => simp [answerBelow, List.map_reverse]
    | cons innermost outer => rfl
  | cons p ps ih =>
    obtain ⟨place, piece⟩ := p
    have hcomment (c : Option Comment) :
        (c.map (·.down lines)).toList ++ (later.map (·.down lines) ++ earlier.reverse) =
          (c.toList ++ later).map (·.down lines) ++ earlier.reverse := by
      cases c <;> simp
    cases piece with
    | block | line | quoted | escape =>
      rw [List.map_cons, judge, judge, comment?_down, hcomment, ih]
    | openBlock | openQuoted => rfl
    | single c =>
      rw [List.map_cons, judge_single, judge_single]
      split
      · exact ih (place :: blocks) later
      · split
        · cases blocks with
          | nil => rfl
          | cons innermost outer => exact ih outer later
        · exact ih blocks later

/-! ### The end of a line -/

/-- Only a backslash leads behind a backslash. -/
lemma State.eq_backslash_of_step {s t : State} {c : Char} (h : s.step d c = .ok t)
    (hmode : t.mode = .escape) : c = '\\' := by
  unfold State.step State.stepPlain at h
  grind [State.advance]

lemma State.place_of_step {s t : State} {c : Char} (h : s.step d c = .ok t) :
    t.place = s.place.next c := by
  unfold State.step State.stepPlain at h
  grind [State.advance]

lemma place_of_scanFrom {s t : State} {text : List Char} (h : scanFrom d s text = .ok t) :
    t.place = s.place.behind text := by
  induction text generalizing s with
  | nil =>
    cases h
    rfl
  | cons c text ih =>
    obtain ⟨next, hstep, hrest⟩ := exists_of_bind_eq_ok h
    rw [ih hrest, State.place_of_step hstep]
    rfl

lemma getLast?_of_scanFrom {s t : State} {text : List Char} (h : scanFrom d s text = .ok t)
    (hmode : t.mode = .escape) : s.mode = .escape ∨ text.getLast? = some '\\' := by
  rcases List.eq_nil_or_concat text with rfl | ⟨front, c, rfl⟩
  · cases h
    exact Or.inl hmode
  · rw [List.concat_eq_append, scanFrom_append] at h
    obtain ⟨before, -, hlast⟩ := exists_of_bind_eq_ok h
    obtain ⟨after, hstep, hnil⟩ := exists_of_bind_eq_ok hlast
    cases hnil
    rw [List.concat_eq_append, List.getLast?_concat, State.eq_backslash_of_step hstep hmode]
    exact Or.inr rfl

/-- **A newline at the end of an accepted text**, unless it is escaped, leaves the scan outside of
everything. -/
lemma State.eq_of_step_newline {s t : State} (h : s.step d '\n' = .ok t) (hmode : s.mode ≠ .escape)
    {comments : List Comment} (hfinish : t.finish = .ok comments) :
    t = ⟨s.place.next '\n', .plain '\n', [], comments.reverse⟩ := by
  have hclosed {place : Place} {blocks : List Place} {found : List Comment}
      (hclose : State.finish ⟨place, .plain '\n', blocks, found⟩ = .ok comments) :
      (⟨place, .plain '\n', blocks, found⟩ : State) =
        ⟨place, .plain '\n', [], comments.reverse⟩ := by
    cases blocks with
    | nil =>
      cases hclose
      rw [List.reverse_reverse]
    | cons innermost outer => cases hclose
  obtain ⟨place, mode, blocks, found⟩ := s
  -- A block comment goes on behind a newline, and a string does unless newlines could be quotes;
  -- but then the text would not have been accepted.
  cases mode with
  | escape => exact absurd rfl hmode
  | plain | slash | inLine =>
    cases h
    exact hclosed hfinish
  | quotedEscape | inBlock | starInBlock =>
    cases h
    cases hfinish
  | quoted quote opened =>
    by_cases hquote : '\n' = quote
    · subst hquote
      cases h
      exact hclosed hfinish
    · have hstep : State.step d ⟨place, .quoted quote opened, blocks, found⟩ '\n' =
          .ok ⟨place.next '\n', .quoted quote opened, blocks, found⟩ := by
        simp [State.step, State.advance, hquote]
      cases hstep.symm.trans h
      cases hfinish

/-- Behind an accepted text that ends with a line, a scan goes on as judging does, behind the
comments of that text. -/
lemma scan_append_eq_judge {a : List Char} (hends : EndsLine a) {comments : List Comment}
    (ha : scan d a = .ok comments) (b : List Char) :
    scan d (a ++ b) =
      judge d [] comments.reverse (locate (Place.start.down (a.count '\n')) (cut d true b)) := by
  obtain ⟨s, hscan, hfinish⟩ := exists_of_bind_eq_ok ha
  have hresume : scan d (a ++ b) = outcome d s b := by
    rw [scan, scanFrom_append, hscan]
    rfl
  rcases hends with rfl | ⟨front, rfl, hfront⟩
  · cases hscan
    cases hfinish
    rw [hresume]
    exact outcome_eq_judge true b .start ' ' admitsLineComment_blank [] []
  · rw [scanFrom_append] at hscan
    obtain ⟨before, hbefore, hlast⟩ := exists_of_bind_eq_ok hscan
    obtain ⟨after, hstep, hnil⟩ := exists_of_bind_eq_ok hlast
    cases hnil
    have hmode : before.mode ≠ .escape := fun hmode =>
      (getLast?_of_scanFrom hbefore hmode).elim nofun hfront
    have hplace : before.place.next '\n' = Place.start.down ((front ++ ['\n']).count '\n') := by
      rw [place_of_scanFrom hbefore, List.count_append, List.count_singleton_self]
      unfold Place.next
      rw [if_pos rfl, line_behind, Nat.add_assoc]
      rfl
    rw [hresume, State.eq_of_step_newline hstep hmode hfinish, hplace]
    exact outcome_eq_judge true b _ '\n' (by decide) [] comments.reverse

/-- **Scanning is compositional.**  Behind an accepted text that ends with a line, a text is scanned
as a source of its own: it is accepted or refused as that is, with the comments of both in order,
and as many lines further down as the first text has. -/
theorem scan_append {a : List Char} (hends : EndsLine a) {comments : List Comment}
    (ha : scan d a = .ok comments) (b : List Char) :
    scan d (a ++ b) = answerBelow comments (a.count '\n') (scan d b) := by
  rw [scan_append_eq_judge hends ha, locate_down, scan_eq_judge]
  exact judge_down comments (a.count '\n') [] [] (pieces d b)

/-- A line comment at the seam, which begins the second text. -/
theorem scan_append_lineComment :
    EndsLine "/*a*/\n".toList ∧ scan .scss "/*a*/\n".toList = .ok [⟨['a'], 1, 1⟩] ∧
      scan .scss ("/*a*/\n".toList ++ "//b\n\x7d".toList) =
        answerBelow [⟨['a'], 1, 1⟩] 1 (scan .scss "//b\n\x7d".toList) := by
  have hends : EndsLine "/*a*/\n".toList := Or.inr ⟨"/*a*/".toList, rfl, by decide⟩
  have ha : scan .scss "/*a*/\n".toList = .ok [⟨['a'], 1, 1⟩] := by decide +kernel
  exact ⟨hends, ha, scan_append hends ha _⟩

end Stylesheet

end SheetLint
