import SheetLint.Proofs.Stylesheet.Scan

/-!
# What the dialects have in common

Dialects differ in two questions: whether `//` can open a comment, and whether braces delimit
blocks.  The first one is put only behind a slash, so that a source without two slashes in a row is
scanned alike whatever the answer (`outcome_css`).

The second one decides about the open blocks and nothing else: reading the same character, a scan
that minds braces and one that does not go to the same state up to the open blocks, unless a closing
brace is one too many (`step_upToBlocks`).  So where braces are ordinary characters a source is
refused for nothing but its comments and strings, and braces can add two defects to these:
`IsAnswerWithBraces`.

Which of two defects is reported is a matter of order.  A closing brace too many is found when it is
read, in front of whatever else is wrong further on; a block that stays open is found at the end,
behind everything else.

`scan_dialects` puts this together for any text, accepted or not.
-/

namespace SheetLint.Stylesheet

open Text (Place)

/-! ### Line comments -/

/-- The scan is behind a slash. -/
def State.IsBehindSlash (s : State) : Prop := ∃ before slashAt, s.mode = .slash before slashAt

lemma State.eq_slash_of_step {d : Dialect} {s t : State} {c : Char} (h : s.step d c = .ok t)
    (ht : t.IsBehindSlash) : c = '/' := by
  obtain ⟨before, slashAt, hmode⟩ := ht
  unfold State.step State.stepPlain at h
  grind [State.advance]

/-- Only a second slash is read in different ways. -/
lemma State.step_css {s : State} {c : Char} (h : s.IsBehindSlash → c ≠ '/') :
    s.step .css c = s.step .scss c := by
  obtain ⟨place, mode, blocks, comments⟩ := s
  cases mode with
  | slash before slashAt =>
    have hc : c ≠ '/' := h ⟨before, slashAt, rfl⟩
    simp only [State.step, hc, false_and, if_false]
    rfl
  | plain | escape | quoted | quotedEscape | inBlock | starInBlock | inLine => rfl

/-- **No two slashes in a row.**  By induction on the text: no slash is followed by another. -/
lemma outcome_css {s : State} {text : List Char} (hs : s.IsBehindSlash → text.head? ≠ some '/')
    (htext : ¬ ['/', '/'] <:+: text) : outcome .css s text = outcome .scss s text := by
  induction text generalizing s with
  | nil => rfl
  | cons c rest ih =>
    rw [outcome_cons, outcome_cons, State.step_css (by simpa using hs)]
    cases hstep : s.step .scss c with
    | error m => rfl
    | ok t =>
      have hrest : ¬ ['/', '/'] <:+: rest := fun hrest =>
        htext (hrest.trans (List.suffix_cons c rest).isInfix)
      refine ih (fun ht hhead => htext ?_) hrest
      obtain ⟨behind, rfl⟩ := List.head?_eq_some_iff.mp hhead
      rw [State.eq_slash_of_step hstep ht]
      exact ⟨[], behind, rfl⟩

/-! ### Braces -/

/-- What two scans make of the same character that differ in their open blocks: one that does not
mind braces goes on, and one that does goes to the same state up to the blocks, or stops at a brace
that closes none. -/
def IsStepUpToBlocks (s : State) (sass scss : Except Malformed State) : Prop :=
  ∃ t, sass = .ok t ∧ t.blocks = s.blocks ∧
    ((∃ inner, scss = .ok { t with blocks := inner }) ∨ scss = .error ⟨.unexpectedBrace, s.place⟩)

section

variable (s : State) (c : Char) (blocks : List Place)

lemma stepPlain_upToBlocks (before : Char) :
    IsStepUpToBlocks s (s.stepPlain .sass before c)
      (State.stepPlain .scss { s with blocks := blocks } before c) := by
  by_cases hslash : c = '/'
  · subst hslash
    exact ⟨_, rfl, rfl, Or.inl ⟨blocks, rfl⟩⟩
  by_cases hescape : c = '\\'
  · subst hescape
    exact ⟨_, rfl, rfl, Or.inl ⟨blocks, rfl⟩⟩
  by_cases hquote : c = '\x22' ∨ c = '\x27'
  · rcases hquote with rfl | rfl <;> exact ⟨_, rfl, rfl, Or.inl ⟨blocks, rfl⟩⟩
  by_cases hopen : c = '\x7b'
  · subst hopen
    exact ⟨_, rfl, rfl, Or.inl ⟨s.place :: blocks, rfl⟩⟩
  by_cases hclose : c = '\x7d'
  · subst hclose
    cases blocks with
    | nil => exact ⟨_, rfl, rfl, Or.inr rfl⟩
    | cons innermost outer => exact ⟨_, rfl, rfl, Or.inl ⟨outer, rfl⟩⟩
  · have hother (d : Dialect) (s : State) :
        s.stepPlain d before c = .ok (s.advance c (.plain c)) := by
      simp [State.stepPlain, *]
    exact ⟨_, hother .sass s, rfl, Or.inl ⟨blocks, hother .scss _⟩⟩

/-- **One character, with braces and without.** -/
lemma step_upToBlocks :
    IsStepUpToBlocks s (s.step .sass c) (State.step .scss { s with blocks := blocks } c) := by
  have hlines : Dialect.sass.hasLineComments = Dialect.scss.hasLineComments := rfl
  obtain ⟨place, mode, inner, comments⟩ := s
  -- Inside of comments and strings braces count for neither scan.
  cases mode with
  | plain before => exact stepPlain_upToBlocks _ c blocks before
  | slash before slashAt =>
    have hplain := stepPlain_upToBlocks ⟨place, .slash before slashAt, inner, comments⟩ c blocks '/'
    simp only [State.step, hlines]
    split
    · exact ⟨_, rfl, rfl, Or.inl ⟨blocks, rfl⟩⟩
    · split
      · exact ⟨_, rfl, rfl, Or.inl ⟨blocks, rfl⟩⟩
      · exact hplain
  | escape | quotedEscape => exact ⟨_, rfl, rfl, Or.inl ⟨blocks, rfl⟩⟩
  | inBlock | inLine =>
    simp only [State.step]
    split <;> exact ⟨_, rfl, rfl, Or.inl ⟨blocks, rfl⟩⟩
  | quoted | starInBlock =>
    simp only [State.step]
    split
    · exact ⟨_, rfl, rfl, Or.inl ⟨blocks, rfl⟩⟩
    · split <;> exact ⟨_, rfl, rfl, Or.inl ⟨blocks, rfl⟩⟩

end

/-- What braces can change in an answer: they can add a defect of their own, a closing one too many
before any other, or an open block after all others. -/
def IsAnswerWithBraces (sass scss : Except Malformed (List Comment)) : Prop :=
  scss = sass ∨ (∃ m, scss = .error m ∧ m.defect = .unexpectedBrace) ∨
    ∃ comments m, sass = .ok comments ∧ scss = .error m ∧ m.defect = .unclosedBlock

lemma finish_upToBlocks (s : State) (hs : s.blocks = []) (blocks : List Place) :
    IsAnswerWithBraces s.finish (State.finish { s with blocks := blocks }) := by
  obtain ⟨place, mode, inner, comments⟩ := s
  obtain rfl : inner = [] := hs
  have hclose (found : List Comment) :
      IsAnswerWithBraces (State.finish.close ⟨place, mode, [], comments⟩ found)
        (State.finish.close ⟨place, mode, blocks, comments⟩ found) := by
    cases blocks with
    | nil => exact Or.inl rfl
    | cons innermost outer => exact Or.inr (Or.inr ⟨_, _, rfl, rfl, rfl⟩)
  cases mode with
  | plain | slash | escape | inLine => exact hclose _
  | quoted | quotedEscape | inBlock | starInBlock => exact Or.inl rfl

/-- **A whole source, with braces and without.** -/
lemma outcome_upToBlocks (s : State) (hs : s.blocks = []) (blocks : List Place)
    (text : List Char) :
    IsAnswerWithBraces (outcome .sass s text) (outcome .scss { s with blocks := blocks } text) := by
  induction text generalizing s blocks with
  | nil => exact finish_upToBlocks s hs blocks
  | cons c rest ih =>
    obtain ⟨t, hsass, ht, ⟨inner, hscss⟩ | hscss⟩ := step_upToBlocks s c blocks
    · rw [outcome_cons_of_step hsass, outcome_cons_of_step hscss]
      exact ih t (ht.trans hs) inner
    · rw [outcome_cons { s with blocks := blocks } c rest, hscss]
      exact Or.inr (Or.inl ⟨_, rfl, rfl⟩)

/-- **The dialects differ only where they should.**  Two of them are scanned alike, and plain CSS as
these where no two slashes follow each other.  Where braces are ordinary characters, a source is
accepted with the same comments if it is accepted where they delimit blocks; otherwise only braces
can be what is wrong there, and what is wrong here is wrong there too, unless a closing brace comes
first. -/
theorem scan_dialects (text : List Char) :
    scan .less text = scan .scss text ∧
      (¬ ['/', '/'] <:+: text → scan .css text = scan .scss text) ∧
      (∀ comments, scan .scss text = .ok comments → scan .sass text = .ok comments) ∧
      (∀ comments, scan .sass text = .ok comments → scan .scss text = .ok comments ∨
        ∃ m, scan .scss text = .error m ∧
          (m.defect = .unexpectedBrace ∨ m.defect = .unclosedBlock)) ∧
      ∀ m, scan .sass text = .error m → ∃ m', scan .scss text = .error m' ∧
        (m' = m ∨ m'.defect = .unexpectedBrace) := by
  have hbraces : IsAnswerWithBraces (scan .sass text) (scan .scss text) :=
    outcome_upToBlocks .initial rfl [] text
  refine ⟨rfl, outcome_css (fun hslash => ?_), fun comments hscss => ?_, fun comments hsass => ?_,
    fun m hsass => ?_⟩
  · obtain ⟨before, slashAt, hmode⟩ := hslash
    exact nomatch hmode
  · rw [hscss] at hbraces
    rcases hbraces with hsame | ⟨m, hm, -⟩ | ⟨_, m, -, hm, -⟩
    · exact hsame.symm
    · exact nomatch hm
    · exact nomatch hm
  · rcases hbraces with hsame | ⟨m, hm, hdefect⟩ | ⟨_, m, -, hm, hdefect⟩
    · exact Or.inl (hsame.trans hsass)
    · exact Or.inr ⟨m, hm, Or.inl hdefect⟩
    · exact Or.inr ⟨m, hm, Or.inr hdefect⟩
  · rw [hsass] at hbraces
    rcases hbraces with hsame | ⟨m', hm', hdefect⟩ | ⟨_, _, hok, -, -⟩
    · exact ⟨m, hsame, Or.inl rfl⟩
    · exact ⟨m', hm', Or.inr hdefect⟩
    · exact nomatch hok

end SheetLint.Stylesheet
