import SheetLint.Json.Schema
import SheetLint.Proofs.DisabledRange.WellFormed
import SheetLint.Proofs.Stylesheet.Composition

/-!
# Positions stay small

Lines and columns begin at one, and a character that is read adds one to the column, or one to the
line and then takes the column back to one.  So the sum of the two grows by one at most with each
character: `IsReached`.

A scan remembers places and lines that it has been at, where a comment, a string or a block was
opened, and the lines of the comments that it has met.  They are bounded by what has been read, at
each point of the scan, `State.IsBounded`, which one step preserves.  A step outside comments and
strings is one case of many, and the one that keeps account of blocks, so it is taken apart first
(`State.IsBounded.stepPlain`).

From a step the bound goes on to a run of steps, and to the answer of the scan from any point on,
which is a list of comments or a defect with its place.  A defect is found at a place that the scan
has reached, or at one that it remembers when the text ends.

So all that is reported of a source with fewer characters than the largest number of 32 bits is a
number of 32 bits, the line behind a comment included: `structural_positions`.
-/

namespace SheetLint

open Text (Place)

namespace Text.Place

/-- The place can be reached with so many characters. -/
structure IsReached (p : Place) (read : Nat) : Prop where
  one_le_line : 1 ≤ p.line
  one_le_column : 1 ≤ p.column
  sum_le : p.line + p.column ≤ read + 2

variable {p : Place} {read : Nat}

lemma isReached_start : start.IsReached 0 := ⟨Nat.le_refl 1, Nat.le_refl 1, Nat.le_refl 2⟩

lemma IsReached.mono (h : p.IsReached read) {more : Nat} (hle : read ≤ more) : p.IsReached more :=
  ⟨h.one_le_line, h.one_le_column, Nat.le_trans h.sum_le (Nat.add_le_add_right hle 2)⟩

/-- **One more character.**  A newline makes room for the new line by the column that it takes
back. -/
lemma IsReached.next (h : p.IsReached read) (c : Char) : (p.next c).IsReached (read + 1) := by
  obtain ⟨hline, hcolumn, hsum⟩ := h
  unfold Place.next
  split
  · exact ⟨Nat.le_add_left 1 _, Nat.le_refl 1, by dsimp only; omega⟩
  · exact ⟨hline, Nat.le_add_left 1 _, by dsimp only; omega⟩

lemma IsReached.line_le (h : p.IsReached read) : p.line ≤ read + 1 := by
  obtain ⟨-, hcolumn, hsum⟩ := h
  omega

lemma IsReached.column_le (h : p.IsReached read) : p.column ≤ read + 1 := by
  obtain ⟨hline, -, hsum⟩ := h
  omega

end Text.Place

namespace Stylesheet

variable {d : Dialect} {s t : State} {read : Nat}

/-! ### The points of a scan -/

/-- What the mode remembers is bounded. -/
def Mode.IsBounded (read : Nat) : Mode → Prop
  | .plain _ | .escape => True
  | .slash _ opened | .quoted _ opened | .quotedEscape _ opened => opened.IsReached read
  | .inBlock opened _ | .starInBlock opened _ => opened.IsReached read
  | .inLine line _ => line ≤ read

lemma Mode.IsBounded.mono {mode : Mode} (h : mode.IsBounded read) {more : Nat}
    (hle : read ≤ more) : mode.IsBounded more := by
  cases mode with
  | plain | escape => trivial
  | inLine => exact Nat.le_trans h hle
  | slash | quoted | quotedEscape | inBlock | starInBlock => exact Place.IsReached.mono h hle

/-- All that the scan remembers is bounded. -/
structure State.IsBounded (s : State) (read : Nat) : Prop where
  place : s.place.IsReached read
  mode : s.mode.IsBounded read
  blocks : ∀ p ∈ s.blocks, p.IsReached read
  comments : ∀ c ∈ s.comments, c.lastLine ≤ read

lemma State.isBounded_initial : State.initial.IsBounded 0 :=
  ⟨Place.isReached_start, trivial, List.forall_mem_nil _, List.forall_mem_nil _⟩

lemma State.IsBounded.advance (h : s.IsBounded read) (c : Char) (mode : Mode)
    (hmode : mode.IsBounded (read + 1)) : (s.advance c mode).IsBounded (read + 1) where
  place := h.place.next c
  mode := hmode
  blocks := fun p hp => (h.blocks p hp).mono (Nat.le_succ read)
  comments := fun c hc => Nat.le_trans (h.comments c hc) (Nat.le_succ read)

/-- A character outside comments and strings.  An opening brace adds its place to the blocks, a
closing one takes a block away. -/
lemma State.IsBounded.stepPlain (h : s.IsBounded read) {before c : Char}
    (hstep : s.stepPlain d before c = .ok t) : t.IsBounded (read + 1) := by
  have hhere : s.place.IsReached (read + 1) := h.place.mono (Nat.le_succ read)
  have hplain : (s.advance c (.plain c)).IsBounded (read + 1) := h.advance c _ trivial
  -- In the order of the definition: a slash, a backslash, a quote, an opening brace, a closing one,
  -- and any other character. Only the braces change the blocks.
  unfold State.stepPlain at hstep
  split at hstep
  · cases hstep
    exact h.advance c _ hhere
  split at hstep
  · cases hstep
    exact h.advance c _ trivial
  split at hstep
  · cases hstep
    exact h.advance c _ hhere
  split at hstep
  · cases hstep
    exact { hplain with blocks := List.forall_mem_cons.mpr ⟨hhere, hplain.blocks⟩ }
  split at hstep
  · cases hblocks : s.blocks with
    | nil =>
      rw [hblocks] at hstep
      exact nomatch hstep
    | cons block outer =>
      rw [hblocks] at hstep
      cases hstep
      have hall := hplain.blocks
      rw [State.advance, hblocks] at hall
      exact { hplain with blocks := (List.forall_mem_cons.mp hall).2 }
  · cases hstep
    exact hplain

/-- **One step.**  A comment ends on the line of the character that ends it, or on the line of its
slashes if it runs to the end of that. -/
lemma State.IsBounded.step (h : s.IsBounded read) {c : Char} (hstep : s.step d c = .ok t) :
    t.IsBounded (read + 1) := by
  have hmode : s.mode.IsBounded (read + 1) := h.mode.mono (Nat.le_succ read)
  have hplain (before : Char) : (s.advance c (.plain before)).IsBounded (read + 1) :=
    h.advance c _ trivial
  -- One case for each mode. A comment is put on the list by the slash behind a star, and by the
  -- newline behind a line comment.
  unfold State.step at hstep
  split at hstep
  · exact h.stepPlain hstep
  · next before slashAt heq =>
    have hslash := h.mode
    rw [heq] at hslash hmode
    split at hstep
    · cases hstep
      exact h.advance c _ hmode
    split at hstep
    · cases hstep
      exact h.advance c _ (Place.IsReached.line_le hslash)
    · exact h.stepPlain hstep
  · cases hstep
    exact hplain _
  · next quote opened heq =>
    rw [heq] at hmode hstep
    split at hstep
    · cases hstep
      exact h.advance c _ hmode
    split at hstep
    · cases hstep
      exact hplain _
    · cases hstep
      exact h.advance c _ hmode
  · next quote opened heq =>
    rw [heq] at hmode
    cases hstep
    exact h.advance c _ hmode
  · next opened text heq =>
    rw [heq] at hmode
    split at hstep
    · cases hstep
      exact h.advance c _ hmode
    · cases hstep
      exact h.advance c _ hmode
  · next opened text heq =>
    rw [heq] at hmode
    split at hstep
    · cases hstep
      exact { hplain ' ' with
        comments := List.forall_mem_cons.mpr ⟨h.place.line_le, (hplain ' ').comments⟩ }
    split at hstep
    · cases hstep
      exact h.advance c _ hmode
    · cases hstep
      exact h.advance c _ hmode
  · next line text heq =>
    rw [heq] at hmode
    split at hstep
    · cases hstep
      exact { hplain c with comments := List.forall_mem_cons.mpr ⟨hmode, (hplain c).comments⟩ }
    · cases hstep
      exact h.advance c _ hmode

lemma State.place_of_step_error {c : Char} {m : Malformed} (h : s.step d c = .error m) :
    m.place = s.place := by
  unfold State.step State.stepPlain at h
  grind

/-- **All points of a scan.** -/
lemma State.IsBounded.scanFrom (h : s.IsBounded read) {text : List Char}
    (hscan : Stylesheet.scanFrom d s text = .ok t) : t.IsBounded (read + text.length) := by
  induction text generalizing s read with
  | nil =>
    cases hscan
    exact h
  | cons c text ih =>
    obtain ⟨next, hstep, hrest⟩ := exists_of_bind_eq_ok hscan
    have hmore := ih (h.step hstep) hrest
    rwa [Nat.add_assoc, Nat.add_comm 1] at hmore

/-! ### The answer of a scan -/

/-- The places and lines of the answer are bounded. -/
def IsBoundedAnswer (read : Nat) : Except Malformed (List Comment) → Prop
  | .ok comments => ∀ c ∈ comments, c.lastLine ≤ read
  | .error m => m.place.IsReached read

lemma State.IsBounded.finish (h : s.IsBounded read) : IsBoundedAnswer read s.finish := by
  have hclose {comments : List Comment} (hcomments : ∀ c ∈ comments, c.lastLine ≤ read) :
      IsBoundedAnswer read (State.finish.close s comments) := by
    have hblocks := h.blocks
    unfold State.finish.close
    cases hs : s.blocks with
    | nil => exact fun c hc => hcomments c (List.mem_reverse.mp hc)
    | cons innermost outer =>
      rw [hs] at hblocks
      exact hblocks innermost List.mem_cons_self
  have hmode := h.mode
  unfold State.finish
  cases hs : s.mode with
  | inBlock | starInBlock | quoted | quotedEscape =>
    rw [hs] at hmode
    exact hmode
  | inLine line text =>
    rw [hs] at hmode
    exact hclose (List.forall_mem_cons.mpr ⟨hmode, h.comments⟩)
  | plain | slash | escape => exact hclose h.comments

/-- **The answer behind a point**, when the rest of the source has been read. -/
lemma State.IsBounded.outcome (h : s.IsBounded read) (text : List Char) :
    IsBoundedAnswer (read + text.length) (outcome d s text) := by
  induction text generalizing s read with
  | nil => exact h.finish
  | cons c text ih =>
    rw [outcome_cons]
    cases hstep : s.step d c with
    | error m =>
      have hplace := h.place
      rw [← State.place_of_step_error hstep] at hplace
      exact hplace.mono (Nat.le_add_right _ _)
    | ok next =>
      have hmore := ih (h.step hstep)
      rwa [Nat.add_assoc, Nat.add_comm 1] at hmore

lemma isBoundedAnswer_scan (d : Dialect) (text : List Char) :
    IsBoundedAnswer text.length (scan d text) := by
  have hanswer := State.isBounded_initial.outcome (d := d) text
  rwa [Nat.zero_add] at hanswer

end Stylesheet

open Stylesheet DisabledRange

/-! ### What is reported -/

lemma Engine.isMalformedSource_of_dialectOf {source : Source} {settings : EngineSettings}
    {failure : Failure} (h : dialectOf source settings = .error failure) :
    failure.isMalformedSource = false := by
  unfold dialectOf at h
  split at h
  · split at h
    · exact nomatch h
    · cases h
      rfl
  · exact nomatch h

/-- A failure that the stylesheet is to blame for is one of the scan. -/
lemma Engine.exists_scan_of_isMalformedSource {source : Source} {settings : EngineSettings}
    {failure : Failure} (hfailure : structural source settings = .error failure)
    (hmalformed : failure.isMalformedSource = true) :
    ∃ d m, scan d source.text.toList = .error m ∧ failure = failureOf source m := by
  unfold structural at hfailure
  cases hdialect : dialectOf source settings with
  | error refused =>
    rw [hdialect] at hfailure
    cases hfailure
    rw [isMalformedSource_of_dialectOf hdialect] at hmalformed
    exact nomatch hmalformed
  | ok d =>
    rw [hdialect] at hfailure
    simp only [bind, Except.bind] at hfailure
    split at hfailure
    · next m hscan =>
      cases hfailure
      exact ⟨d, m, hscan, rfl⟩
    · exact nomatch hfailure

/-- **Positions do not overflow 32 bits.**  At every point of a scan, whether it goes well or not,
line and column are at least one and their sum is bounded by the characters that have been read.  So
in a source with fewer characters than the largest number of 32 bits, neither the next character nor
a line behind a comment leads to a larger number, and all that is reported counts from one. -/
theorem structural_positions {source : Source}
    (hlength : source.text.toList.length < Json.unsignedLimit) (settings : EngineSettings) :
    (∀ d front s, front <+: source.text.toList → scanFrom d .initial front = .ok s →
      s.place.IsReached front.length ∧
        ∀ c, front ++ [c] <+: source.text.toList →
          s.place.line + 1 ≤ Json.unsignedLimit ∧ s.place.column + 1 ≤ Json.unsignedLimit) ∧
    (∀ d comments, scan d source.text.toList = .ok comments → ∀ c ∈ comments,
      1 ≤ c.firstLine ∧ c.firstLine ≤ c.lastLine ∧ c.lastLine + 1 ≤ Json.unsignedLimit) ∧
    (∀ findings, Engine.structural source settings = .ok findings →
      ∀ r ∈ findings.disabledRanges, 1 ≤ r.start ∧ ∀ last, r.last = some last → 1 ≤ last) ∧
    ∀ failure, Engine.structural source settings = .error failure →
      failure.isMalformedSource = true →
      (Place.mk failure.line failure.column).IsReached source.text.toList.length := by
  refine ⟨fun d front s hfront hscan => ?_, fun d comments hscan c hc => ?_,
    fun findings hfindings r hr => ?_, fun failure hfailure hmalformed => ?_⟩
  · have hbounded := State.isBounded_initial.scanFrom hscan
    rw [Nat.zero_add] at hbounded
    refine ⟨hbounded.place, fun c hc => ?_⟩
    have hread := hc.length_le
    rw [List.length_append, List.length_singleton] at hread
    have hline := hbounded.place.line_le
    have hcolumn := hbounded.place.column_le
    omega
  · obtain ⟨hone, hle, -⟩ := standsWithin_of_scan hscan c hc
    have hbounded := isBoundedAnswer_scan d source.text.toList
    rw [hscan] at hbounded
    have hlast := hbounded c hc
    exact ⟨hone, hle, by omega⟩
  · obtain ⟨dialect, comments, -, hscan, hranges⟩ := exists_scan_of_structural hfindings
    rw [hranges] at hr
    split at hr
    · exact nomatch hr
    · rw [ofComments_eq_ofDirectives] at hr
      have hwell := isWellFormed_ofDirectives
        (pairwise_directivesOf (pairwise_firstLine_of_scan hscan))
        (fun p hp => standsWithin_of_scan hscan p.1 (mem_of_mem_directivesOf hp)) r hr
      exact ⟨hwell.one_le_start,
        fun last hlast => Nat.le_trans hwell.one_le_start (hwell.start_le_last last hlast)⟩
  · obtain ⟨d, m, hscan, rfl⟩ := Engine.exists_scan_of_isMalformedSource hfailure hmalformed
    have hbounded := isBoundedAnswer_scan d source.text.toList
    rwa [hscan] at hbounded

/-- A source of two lines, the second of which opens a block that nothing closes. -/
theorem structural_positions_unclosed :
    "/*stylelint-disable-next-line a*/\na\x7b".toList.length < Json.unsignedLimit ∧
    ∃ failure, Engine.structural ⟨"/*stylelint-disable-next-line a*/\na\x7b", none⟩ {} =
        .error failure ∧
      failure.line = 2 ∧ failure.column = 2 ∧
      (Place.mk failure.line failure.column).IsReached
        "/*stylelint-disable-next-line a*/\na\x7b".toList.length := by
  have hlength : "/*stylelint-disable-next-line a*/\na\x7b".toList.length < Json.unsignedLimit := by
    decide
  have hfailure : Engine.structural ⟨"/*stylelint-disable-next-line a*/\na\x7b", none⟩ {} =
      .error ⟨Failure.malformedSource, "Unclosed block", 2, 2, none⟩ := by
    decide +kernel
  obtain ⟨-, -, -, hplaces⟩ :=
    @structural_positions ⟨"/*stylelint-disable-next-line a*/\na\x7b", none⟩ hlength {}
  exact ⟨hlength, _, hfailure, rfl, rfl, hplaces _ hfailure rfl⟩

end SheetLint
