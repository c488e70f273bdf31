import Mathlib.Data.List.Induction
import SheetLint.Engine.Structural
import SheetLint.Proofs.Except
import SheetLint.Proofs.Stylesheet.Lines

/-!
# The ranges mean what the directives say

The ranges of a source are made by opening and closing them in the order of the comments.  What they
cover can be said without ranges: a line is disabled by a directive for that line, or by a `disable`
before it that no `enable` has ended yet.  That is `DirectiveComment.IsDisabled`, which speaks of
the order of the directives only.

The invariant that ties both together, `Agrees`, treats closed and open ranges apart: an `enable`
closes the open ones and leaves the others as they are.  A closed range covers what is disabled up
to the last line seen, for a later `enable` cannot end anything before its own line.  An open range
stands for all lines behind its first, seen or not.

One directive keeps the agreement, `Agrees.apply`, with one lemma for the two commands about a
single line, one for `disable` and one for `enable`.  Each of them says first what the directive
adds to the lines disabled either way, and then compares with the ranges.  That comments come in the
order of their lines is needed for `disable`, whose range is skipped if there is an open one, and
for `enable`.

`structural_covers_iff` is what this gives for every source that is accepted.
-/

namespace SheetLint

open Stylesheet

/-- A comment and the directive it holds. -/
abbrev DirectiveComment := Comment × Directive

/-- The directives among comments, in order. -/
def directivesOf (comments : List Comment) : List DirectiveComment :=
  comments.filterMap fun c => (Directive.ofText? c.text).map fun d => (c, d)

/-- The directive lists the name.  An empty list counts as listing `all`. -/
def Stylesheet.Directive.Lists (d : Directive) (name : String) : Prop :=
  name ∈ d.rules ∨ (d.rules = [] ∧ name = Directive.everyRule)

namespace DirectiveComment

/-- The directive is an `enable` of the name.  An empty list enables every name. -/
def Enables (p : DirectiveComment) (name : String) : Prop :=
  p.2.command = .enable ∧ (p.2.rules = [] ∨ name ∈ p.2.rules)

/-- The directive disables the name on a line of its own choosing. -/
def DisablesLine (p : DirectiveComment) (name : String) (line : Nat) : Prop :=
  p.2.Lists name ∧
    (p.2.command = .disableLine ∧ p.1.firstLine = line ∨
      p.2.command = .disableNextLine ∧ p.1.lastLine + 1 = line)

/-- The directive, which `later` ones follow, disables the name from its line on, up to and with the
given line. -/
def DisablesUpTo (p : DirectiveComment) (later : List DirectiveComment) (name : String)
    (line : Nat) : Prop :=
  p.2.Lists name ∧ p.2.command = .disable ∧ p.1.firstLine ≤ line ∧
    ∀ q ∈ later, q.Enables name → ¬ q.1.firstLine < line

end DirectiveComment

/-- **What directives say.**  A name is disabled on a line if one of them disables it there. -/
def IsDisabled (ds : List DirectiveComment) (name : String) (line : Nat) : Prop :=
  ∃ before p later, ds = before ++ p :: later ∧
    (p.DisablesLine name line ∨ p.DisablesUpTo later name line)

lemma mem_targets_iff (d : Directive) (name : String) : name ∈ d.targets ↔ d.Lists name := by
  unfold Directive.targets Directive.Lists
  cases hrules : d.rules with
  | nil => simp
  | cons rule rules => simp

lemma ends_iff (d : Directive) (name : String) :
    d.ends name = true ↔ d.rules = [] ∨ name ∈ d.rules := by
  simp [Directive.ends]

/-! ### One more directive -/

/-- The name is disabled on the line by a directive for that line. -/
def IsLineDisabled (ds : List DirectiveComment) (name : String) (line : Nat) : Prop :=
  ∃ p ∈ ds, p.DisablesLine name line

/-- The name is disabled on the line by a `disable` before it. -/
def IsRangeDisabled (ds : List DirectiveComment) (name : String) (line : Nat) : Prop :=
  ∃ before p later, ds = before ++ p :: later ∧ p.DisablesUpTo later name line

lemma isDisabled_iff (ds : List DirectiveComment) (name : String) (line : Nat) :
    IsDisabled ds name line ↔ IsLineDisabled ds name line ∨ IsRangeDisabled ds name line := by
  constructor
  · rintro ⟨before, p, later, rfl, hline | hrange⟩
    · exact Or.inl ⟨p, by simp, hline⟩
    · exact Or.inr ⟨before, p, later, rfl, hrange⟩
  · rintro (⟨p, hp, hline⟩ | ⟨before, p, later, rfl, hrange⟩)
    · obtain ⟨before, later, rfl⟩ := List.append_of_mem hp
      exact ⟨before, p, later, rfl, Or.inl hline⟩
    · exact ⟨before, p, later, rfl, Or.inr hrange⟩

lemma isLineDisabled_concat (ds : List DirectiveComment) (p : DirectiveComment) (name : String)
    (line : Nat) :
    IsLineDisabled (ds ++ [p]) name line ↔
      IsLineDisabled ds name line ∨ p.DisablesLine name line := by
  unfold IsLineDisabled
  constructor
  · rintro ⟨q, hq, hline⟩
    rcases List.mem_append.1 hq with hmem | hmem
    · exact Or.inl ⟨q, hmem, hline⟩
    · rw [List.mem_singleton] at hmem
      exact Or.inr (hmem ▸ hline)
  · rintro (⟨q, hq, hline⟩ | hline)
    · exact ⟨q, List.mem_append_left _ hq, hline⟩
    · exact ⟨p, by simp, hline⟩

lemma isLineDisabled_concat_of_ne {ds : List DirectiveComment} {p : DirectiveComment}
    (hline : p.2.command ≠ .disableLine) (hnext : p.2.command ≠ .disableNextLine) {name : String}
    {line : Nat} : IsLineDisabled (ds ++ [p]) name line ↔ IsLineDisabled ds name line := by
  rw [isLineDisabled_concat, DirectiveComment.DisablesLine]
  simp [hline, hnext]

/-- A further directive can open a range, or end the ranges before its line. -/
lemma isRangeDisabled_concat (ds : List DirectiveComment) (p : DirectiveComment) (name : String)
    (line : Nat) :
    IsRangeDisabled (ds ++ [p]) name line ↔
      (IsRangeDisabled ds name line ∧ (p.Enables name → ¬ p.1.firstLine < line)) ∨
        p.DisablesUpTo [] name line := by
  constructor
  · rintro ⟨before, q, later, hsplit, hlists, hcommand, hstart, hlater⟩
    rcases List.eq_nil_or_concat later with rfl | ⟨later, last, rfl⟩
    · obtain ⟨-, hlast⟩ := List.append_inj' hsplit rfl
      obtain rfl : p = q := by simpa using hlast
      exact Or.inr ⟨hlists, hcommand, hstart, hlater⟩
    · rw [List.concat_eq_append, ← List.cons_append, ← List.append_assoc] at hsplit
      obtain ⟨rfl, hlast⟩ := List.append_inj' hsplit rfl
      obtain rfl : p = last := by simpa using hlast
      refine Or.inl ⟨⟨before, q, later, rfl, hlists, hcommand, hstart, ?_⟩, ?_⟩
      · intro r hr
        exact hlater r (by simp [hr])
      · exact hlater p (by simp)
  · rintro (⟨⟨before, q, later, rfl, hlists, hcommand, hstart, hlater⟩, hp⟩ | hp)
    · refine ⟨before, q, later ++ [p], by simp, hlists, hcommand, hstart, ?_⟩
      intro r hr
      rcases List.mem_append.1 hr with hmem | hmem
      · exact hlater r hmem
      · rw [List.mem_singleton] at hmem
        exact hmem ▸ hp
    · exact ⟨ds, p, [], rfl, hp⟩

namespace DisabledRange

lemma containsLine_iff (r : DisabledRange) (line : Nat) :
    r.containsLine line = true ↔ r.start ≤ line ∧ ∀ last, r.last = some last → line ≤ last := by
  unfold containsLine
  cases hlast : r.last <;> simp

/-! ### Opening ranges -/

/-- What is there once some names are disabled: the ranges before, and behind them new open ones. -/
lemma exists_foldl_disable (names : List String) (line : Nat) (ranges : List DisabledRange) :
    ∃ opened, names.foldl (disable · · line) ranges = ranges ++ opened ∧
      ∀ r ∈ opened, r.rule ∈ names ∧ r.start = line ∧ r.last = none := by
  induction names generalizing ranges with
  | nil => exact ⟨[], (List.append_nil ranges).symm, fun _ hr => nomatch hr⟩
  | cons name names ih =>
    obtain ⟨opened, hfold, hopened⟩ := ih (disable ranges name line)
    have hmore : ∀ r ∈ opened, r.rule ∈ name :: names ∧ r.start = line ∧ r.last = none :=
      fun r hr => (hopened r hr).imp_left (List.mem_cons_of_mem name)
    rw [List.foldl_cons, hfold]
    unfold disable
    split
    · exact ⟨opened, rfl, hmore⟩
    · refine ⟨⟨name, line, none⟩ :: opened, List.append_assoc .., ?_⟩
      exact List.forall_mem_cons.mpr ⟨⟨List.mem_cons_self, rfl, rfl⟩, hmore⟩

lemma mem_foldl_disable {names : List String} {line : Nat} {ranges : List DisabledRange}
    {r : DisabledRange} (h : r ∈ names.foldl (disable · · line) ranges) :
    r ∈ ranges ∨ (r.rule ∈ names ∧ r.start = line ∧ r.last = none) := by
  obtain ⟨opened, hfold, hopened⟩ := exists_foldl_disable names line ranges
  rw [hfold] at h
  exact (List.mem_append.mp h).imp_right (hopened r)

lemma mem_foldl_disable_of_mem {names : List String} {line : Nat} {ranges : List DisabledRange}
    {r : DisabledRange} (h : r ∈ ranges) : r ∈ names.foldl (disable · · line) ranges := by
  obtain ⟨opened, hfold, -⟩ := exists_foldl_disable names line ranges
  rw [hfold]
  exact List.mem_append_left opened h

lemma exists_open_of_mem {names : List String} {line : Nat} {ranges : List DisabledRange}
    {name : String} (h : name ∈ names) :
    ∃ r ∈ names.foldl (disable · · line) ranges, r.rule = name ∧ r.last = none := by
  induction names generalizing ranges with
  | nil => simp at h
  | cons first names ih =>
    rw [List.foldl_cons]
    rcases List.mem_cons.1 h with rfl | hmem
    · obtain ⟨r, hr, hrule, hlast⟩ :
          ∃ r ∈ disable ranges name line, r.rule = name ∧ r.last = none := by
        unfold disable
        split
        · rename_i hopen
          obtain ⟨r, hr, hfor⟩ := List.any_eq_true.1 hopen
          simp only [isOpenFor, Bool.and_eq_true, Option.isNone_iff_eq_none, beq_iff_eq] at hfor
          exact ⟨r, hr, hfor.2, hfor.1⟩
        · exact ⟨⟨name, line, none⟩, by simp, rfl, rfl⟩
      exact ⟨r, mem_foldl_disable_of_mem hr, hrule, hlast⟩
    · exact ih hmem

/-! ### The invariant -/

/-- **Ranges agree with directives.**  Closed ranges cover nothing but what is disabled, up to the
last line seen; open ones nothing but what is disabled from their line on; and all that is disabled
is covered. -/
structure Agrees (ds : List DirectiveComment) (ranges : List DisabledRange) : Prop where
  closed : ∀ r ∈ ranges, r.last ≠ none → ∀ line, r.containsLine line = true →
    IsLineDisabled ds r.rule line ∨
      (IsRangeDisabled ds r.rule line ∧ ∃ p ∈ ds, line ≤ p.1.firstLine)
  opened : ∀ r ∈ ranges, r.last = none → (∃ p ∈ ds, r.start = p.1.firstLine) ∧
    ∀ line, r.start ≤ line → IsRangeDisabled ds r.rule line
  line : ∀ name line, IsLineDisabled ds name line →
    ∃ r ∈ ranges, r.rule = name ∧ r.last ≠ none ∧ r.containsLine line = true
  range : ∀ name line, IsRangeDisabled ds name line →
    ∃ r ∈ ranges, r.rule = name ∧ r.containsLine line = true

lemma agrees_nil : Agrees [] [] where
  closed := by simp
  opened := by simp
  line := by simp [IsLineDisabled]
  range := by simp [IsRangeDisabled]

lemma Agrees.covers_iff {ds : List DirectiveComment} {ranges : List DisabledRange}
    (h : Agrees ds ranges) (name : String) (line : Nat) :
    (∃ r ∈ ranges, r.rule = name ∧ r.containsLine line = true) ↔ IsDisabled ds name line := by
  rw [isDisabled_iff]
  constructor
  · rintro ⟨r, hr, rfl, hcontains⟩
    by_cases hlast : r.last = none
    · exact Or.inr ((h.opened r hr hlast).2 line ((containsLine_iff r line).1 hcontains).1)
    · rcases h.closed r hr hlast line hcontains with hline | ⟨hrange, -⟩
      · exact Or.inl hline
      · exact Or.inr hrange
  · rintro (hline | hrange)
    · obtain ⟨r, hr, hrule, -, hcontains⟩ := h.line name line hline
      exact ⟨r, hr, hrule, hcontains⟩
    · exact h.range name line hrange

section Step

variable {ds : List DirectiveComment} {ranges : List DisabledRange} {c : Comment} {d : Directive}

lemma mem_concat_of_exists {P : DirectiveComment → Prop} (h : ∃ p ∈ ds, P p)
    (q : DirectiveComment) : ∃ p ∈ ds ++ [q], P p := by
  obtain ⟨p, hp, hP⟩ := h
  exact ⟨p, List.mem_append_left _ hp, hP⟩

lemma Agrees.addLines (h : Agrees ds ranges) {one : Nat}
    (hcommand : d.command = .disableLine ∧ c.firstLine = one ∨
      d.command = .disableNextLine ∧ c.lastLine + 1 = one) :
    Agrees (ds ++ [(c, d)]) (ranges ++ d.targets.map (ofLine · one)) := by
  have hline : ∀ name line, IsLineDisabled (ds ++ [(c, d)]) name line ↔
      IsLineDisabled ds name line ∨ (name ∈ d.targets ∧ one = line) := by
    intro name line
    rw [isLineDisabled_concat, mem_targets_iff, DirectiveComment.DisablesLine]
    rcases hcommand with ⟨hd, rfl⟩ | ⟨hd, rfl⟩ <;> simp [hd]
  -- such a directive opens no range and ends none
  have hrange : ∀ name line, IsRangeDisabled (ds ++ [(c, d)]) name line ↔
      IsRangeDisabled ds name line := by
    intro name line
    rw [isRangeDisabled_concat, DirectiveComment.Enables, DirectiveComment.DisablesUpTo]
    rcases hcommand with ⟨hd, -⟩ | ⟨hd, -⟩ <;> simp [hd]
  constructor
  case closed =>
    intro r hr hlast line hcontains
    rw [hline, hrange]
    rcases List.mem_append.1 hr with hold | hnew
    · rcases h.closed r hold hlast line hcontains with hl | ⟨hl, hseen⟩
      · exact Or.inl (Or.inl hl)
      · exact Or.inr ⟨hl, mem_concat_of_exists hseen _⟩
    · obtain ⟨name, hname, rfl⟩ := List.mem_map.1 hnew
      obtain ⟨hstart, hend⟩ := (containsLine_iff _ _).1 hcontains
      exact Or.inl (Or.inr ⟨hname, Nat.le_antisymm hstart (hend one rfl)⟩)
  case opened =>
    intro r hr hlast
    rcases List.mem_append.1 hr with hold | hnew
    · obtain ⟨hseen, hopen⟩ := h.opened r hold hlast
      exact ⟨mem_concat_of_exists hseen _, fun line hl => (hrange _ _).2 (hopen line hl)⟩
    · obtain ⟨name, -, rfl⟩ := List.mem_map.1 hnew
      exact absurd hlast (by simp [ofLine])
  case line =>
    intro name line hl
    rcases (hline name line).1 hl with hold | ⟨hname, rfl⟩
    · obtain ⟨r, hr, hrest⟩ := h.line name line hold
      exact ⟨r, List.mem_append_left _ hr, hrest⟩
    · refine ⟨ofLine name one, ?_, rfl, by simp [ofLine], by simp [ofLine, containsLine]⟩
      exact List.mem_append_right _ (List.mem_map.2 ⟨name, hname, rfl⟩)
  case range =>
    intro name line hl
    obtain ⟨r, hr, hrest⟩ := h.range name line ((hrange name line).1 hl)
    exact ⟨r, List.mem_append_left _ hr, hrest⟩

/-- **A name that is open already stays so.**  Its range begins no later than a new one would, so
that skipping the new one loses no line. -/
lemma Agrees.disable (h : Agrees ds ranges) (hd : d.command = .disable)
    (hlines : ∀ p ∈ ds, p.1.firstLine ≤ c.firstLine) :
    Agrees (ds ++ [(c, d)]) (d.targets.foldl (DisabledRange.disable · · c.firstLine) ranges) := by
  have hline (name : String) (line : Nat) : IsLineDisabled (ds ++ [(c, d)]) name line ↔
      IsLineDisabled ds name line :=
    isLineDisabled_concat_of_ne (by simp [hd]) (by simp [hd])
  have hrange : ∀ name line, IsRangeDisabled (ds ++ [(c, d)]) name line ↔
      IsRangeDisabled ds name line ∨ (name ∈ d.targets ∧ c.firstLine ≤ line) := by
    intro name line
    rw [isRangeDisabled_concat, mem_targets_iff, DirectiveComment.Enables,
      DirectiveComment.DisablesUpTo]
    simp [hd]
  constructor
  -- the new ranges are open, so a closed one was there before
  case closed =>
    intro r hr hlast line hcontains
    rw [hline, hrange]
    rcases mem_foldl_disable hr with hold | ⟨-, -, hopen⟩
    · rcases h.closed r hold hlast line hcontains with hl | ⟨hl, hseen⟩
      · exact Or.inl hl
      · exact Or.inr ⟨Or.inl hl, mem_concat_of_exists hseen _⟩
    · exact absurd hopen hlast
  case opened =>
    intro r hr hlast
    rcases mem_foldl_disable hr with hold | ⟨hrule, hstart, -⟩
    · obtain ⟨hseen, hopen⟩ := h.opened r hold hlast
      exact ⟨mem_concat_of_exists hseen _, fun line hl => (hrange _ _).2 (Or.inl (hopen line hl))⟩
    · refine ⟨⟨(c, d), by simp, hstart⟩, ?_⟩
      intro line hl
      rw [hstart] at hl
      exact (hrange _ _).2 (Or.inr ⟨hrule, hl⟩)
  case line =>
    intro name line hl
    obtain ⟨r, hr, hrest⟩ := h.line name line ((hline name line).1 hl)
    exact ⟨r, mem_foldl_disable_of_mem hr, hrest⟩
  case range =>
    intro name line hl
    rcases (hrange name line).1 hl with hold | ⟨hname, hfirst⟩
    · obtain ⟨r, hr, hrest⟩ := h.range name line hold
      exact ⟨r, mem_foldl_disable_of_mem hr, hrest⟩
    · obtain ⟨r, hr, hrule, hlast⟩ :=
        @exists_open_of_mem d.targets c.firstLine ranges name hname
      refine ⟨r, hr, hrule, (containsLine_iff r line).2 ⟨?_, by simp [hlast]⟩⟩
      -- either a range of that name was open, from a line no further down, or it is the new one
      rcases mem_foldl_disable hr with hold | ⟨-, hstart, -⟩
      · obtain ⟨⟨p, hp, hstart⟩, -⟩ := h.opened r hold hlast
        have hbefore := hlines p hp
        omega
      · omega

section

variable {line : Nat} {r : DisabledRange}

lemma rule_enable : (DisabledRange.enable d line r).rule = r.rule := by
  unfold DisabledRange.enable
  split <;> rfl

lemma enable_of_closed (h : r.last ≠ none) : DisabledRange.enable d line r = r := by
  unfold DisabledRange.enable
  rw [if_neg]
  simp [h]

lemma enable_of_not_ends (h : d.ends r.rule = false) : DisabledRange.enable d line r = r := by
  unfold DisabledRange.enable
  rw [if_neg]
  simp [h]

lemma enable_of_ends (hopen : r.last = none) (h : d.ends r.rule = true) :
    DisabledRange.enable d line r = { r with last := some line } := by
  unfold DisabledRange.enable
  rw [if_pos]
  simp [hopen, h]

end

/-- **Closing at the line of the `enable`.**  The lines up to it stay covered, and those behind it
are no longer disabled. -/
lemma Agrees.enable (h : Agrees ds ranges) (hd : d.command = .enable)
    (hlines : ∀ p ∈ ds, p.1.firstLine ≤ c.firstLine) :
    Agrees (ds ++ [(c, d)]) (ranges.map (DisabledRange.enable d c.firstLine)) := by
  have hline (name : String) (line : Nat) : IsLineDisabled (ds ++ [(c, d)]) name line ↔
      IsLineDisabled ds name line :=
    isLineDisabled_concat_of_ne (by simp [hd]) (by simp [hd])
  have hrange : ∀ name line, IsRangeDisabled (ds ++ [(c, d)]) name line ↔
      IsRangeDisabled ds name line ∧ (d.ends name = true → line ≤ c.firstLine) := by
    intro name line
    rw [isRangeDisabled_concat, ends_iff, DirectiveComment.Enables, DirectiveComment.DisablesUpTo]
    simp [hd]
  constructor
  -- A closed range was ended just now, at this line, or earlier, and then all it covers was seen.
  case closed =>
    intro r' hr' hlast line hcontains
    obtain ⟨r, hr, rfl⟩ := List.mem_map.1 hr'
    rw [rule_enable, hline, hrange]
    by_cases hopen : r.last = none
    · cases hend : d.ends r.rule with
      | false =>
        rw [enable_of_not_ends hend] at hlast
        exact absurd hopen hlast
      | true =>
        rw [enable_of_ends hopen hend] at hcontains
        obtain ⟨hstart, hle⟩ := (containsLine_iff _ _).1 hcontains
        have hle' : line ≤ c.firstLine := hle c.firstLine rfl
        exact Or.inr ⟨⟨(h.opened r hr hopen).2 line hstart, fun _ => hle'⟩, (c, d), by simp, hle'⟩
    · rw [enable_of_closed hopen] at hcontains
      rcases h.closed r hr hopen line hcontains with hl | ⟨hl, p, hp, hseen⟩
      · exact Or.inl hl
      · have hle := Nat.le_trans hseen (hlines p hp)
        exact Or.inr ⟨⟨hl, fun _ => hle⟩, (c, d), by simp, hle⟩
  case opened =>
    intro r' hr' hlast
    obtain ⟨r, hr, rfl⟩ := List.mem_map.1 hr'
    have hopen : r.last = none := by
      by_contra hne
      rw [enable_of_closed hne] at hlast
      exact hne hlast
    have hend : d.ends r.rule = false := by
      by_contra hne
      rw [enable_of_ends hopen (by simpa using hne)] at hlast
      simp at hlast
    rw [enable_of_not_ends hend]
    obtain ⟨hseen, hdisabled⟩ := h.opened r hr hopen
    refine ⟨mem_concat_of_exists hseen _, ?_⟩
    intro line hl
    exact (hrange _ _).2 ⟨hdisabled line hl, by simp [hend]⟩
  case line =>
    intro name line hl
    obtain ⟨r, hr, hname, hlast, hcontains⟩ := h.line name line ((hline name line).1 hl)
    exact ⟨r, List.mem_map.2 ⟨r, hr, enable_of_closed hlast⟩, hname, hlast, hcontains⟩
  -- Behind its line the `enable` has undone what it names, and before it nothing.
  case range =>
    intro name line hl
    obtain ⟨hold, hupTo⟩ := (hrange name line).1 hl
    obtain ⟨r, hr, rfl, hcontains⟩ := h.range name line hold
    by_cases hopen : r.last = none
    · cases hend : d.ends r.rule with
      | false => exact ⟨r, List.mem_map.2 ⟨r, hr, enable_of_not_ends hend⟩, rfl, hcontains⟩
      | true =>
        refine ⟨_, List.mem_map.2 ⟨r, hr, enable_of_ends hopen hend⟩, rfl, ?_⟩
        refine (containsLine_iff _ _).2 ⟨((containsLine_iff r line).1 hcontains).1, ?_⟩
        intro last hlast
        obtain rfl : c.firstLine = last := by simpa using hlast
        exact hupTo hend
    · exact ⟨r, List.mem_map.2 ⟨r, hr, enable_of_closed hopen⟩, rfl, hcontains⟩

/-- **One directive keeps the agreement.** -/
lemma Agrees.apply (h : Agrees ds ranges) (hlines : ∀ p ∈ ds, p.1.firstLine ≤ c.firstLine) :
    Agrees (ds ++ [(c, d)]) (DisabledRange.apply ranges c d) := by
  unfold DisabledRange.apply
  cases hd : d.command with
  | disable => exact h.disable hd hlines
  | disableLine => exact h.addLines (Or.inl ⟨hd, rfl⟩)
  | disableNextLine => exact h.addLines (Or.inr ⟨hd, rfl⟩)
  | enable => exact h.enable hd hlines

end Step

/-! ### All directives of a source -/

lemma ofComments_eq (comments : List Comment) :
    ofComments comments =
      (directivesOf comments).foldl (fun ranges p => DisabledRange.apply ranges p.1 p.2) [] := by
  unfold ofComments directivesOf
  generalize ([] : List DisabledRange) = ranges
  induction comments generalizing ranges with
  | nil => rfl
  | cons c comments ih =>
    rw [List.foldl_cons, ih]
    unfold DisabledRange.read
    cases hd : Directive.ofText? c.text with
    | none => simp [hd]
    | some d => simp [hd]

lemma pairwise_directivesOf {comments : List Comment}
    (h : comments.Pairwise fun a b => a.firstLine ≤ b.firstLine) :
    (directivesOf comments).Pairwise fun p q => p.1.firstLine ≤ q.1.firstLine := by
  unfold directivesOf
  rw [List.pairwise_filterMap]
  refine h.imp ?_
  intro a b hab p hp q hq
  obtain ⟨_, -, rfl⟩ := Option.map_eq_some_iff.1 hp
  obtain ⟨_, -, rfl⟩ := Option.map_eq_some_iff.1 hq
  exact hab

/-- **Ranges agree with the directives they come from.**  By induction on the directives, whose
lines never decrease. -/
theorem agrees_foldl (ds : List DirectiveComment)
    (h : ds.Pairwise fun p q => p.1.firstLine ≤ q.1.firstLine) :
    Agrees ds (ds.foldl (fun ranges p => DisabledRange.apply ranges p.1 p.2) []) := by
  induction ds using List.reverseRecOn with
  | nil => exact agrees_nil
  | append_singleton ds p ih =>
    obtain ⟨hds, -, hlast⟩ := List.pairwise_append.1 h
    rw [List.foldl_append]
    exact (ih hds).apply fun q hq => hlast q hq p (by simp)

end DisabledRange

lemma exists_scan_of_structural {source : Source} {settings : EngineSettings} {findings : Findings}
    (hfindings : Engine.structural source settings = .ok findings) :
    ∃ dialect comments, Engine.dialectOf source settings = .ok dialect ∧
      scan dialect source.text.toList = .ok comments ∧
        findings.disabledRanges =
          if settings.ignoreDisables then [] else DisabledRange.ofComments comments := by
  unfold Engine.structural at hfindings
  obtain ⟨dialect, hdialect, hfindings⟩ := exists_of_bind_eq_ok hfindings
  cases hscan : scan dialect source.text.toList with
  | error m =>
    rw [hscan] at hfindings
    exact nomatch hfindings
  | ok comments =>
    simp only [hscan, Except.ok.injEq] at hfindings
    exact ⟨dialect, comments, hdialect, hscan, by rw [← hfindings]⟩

/-- **The disabled ranges mean what the directives say.**  Some range covers a warning exactly if
the directives of the source disable its rule, or every rule, on its line. -/
theorem structural_covers_iff {source : Source} {settings : EngineSettings} {findings : Findings}
    (hfindings : Engine.structural source settings = .ok findings)
    (hon : settings.ignoreDisables = false) :
    ∃ dialect comments, Engine.dialectOf source settings = .ok dialect ∧
      scan dialect source.text.toList = .ok comments ∧
        ∀ w : Warning, (∃ r ∈ findings.disabledRanges, r.covers w = true) ↔
          ∃ name, (name = w.rule ∨ name = Directive.everyRule) ∧
            IsDisabled (directivesOf comments) name w.line := by
  obtain ⟨dialect, comments, hdialect, hscan, hranges⟩ := exists_scan_of_structural hfindings
  rw [hon, if_neg Bool.false_ne_true, DisabledRange.ofComments_eq] at hranges
  have hagrees := DisabledRange.agrees_foldl (directivesOf comments)
    (DisabledRange.pairwise_directivesOf (pairwise_firstLine_of_scan hscan))
  refine ⟨dialect, comments, hdialect, hscan, fun w => ?_⟩
  rw [hranges]
  constructor
  · rintro ⟨r, hr, hcovers⟩
    simp only [DisabledRange.covers, DisabledRange.targets, Bool.and_eq_true, Bool.or_eq_true,
      beq_iff_eq] at hcovers
    obtain ⟨htargets, hcontains⟩ := hcovers
    exact ⟨r.rule, htargets.symm, (hagrees.covers_iff _ _).1 ⟨r, hr, rfl, hcontains⟩⟩
  · rintro ⟨name, hname, hdisabled⟩
    obtain ⟨r, hr, rfl, hcontains⟩ := (hagrees.covers_iff _ _).2 hdisabled
    refine ⟨r, hr, ?_⟩
    simp only [DisabledRange.covers, DisabledRange.targets, Bool.and_eq_true, Bool.or_eq_true,
      beq_iff_eq]
    exact ⟨hname.symm, hcontains⟩

/-- A rule that is disabled on two lines. -/
theorem structural_covers_iff_two_lines :
    ∃ dialect comments,
      Engine.dialectOf ⟨"/*stylelint-disable a*/\n/*stylelint-enable*/", none⟩ {} = .ok dialect ∧
      scan dialect "/*stylelint-disable a*/\n/*stylelint-enable*/".toList = .ok comments ∧
        ∀ w : Warning, (∃ r ∈ [(⟨"a", 1, some 2⟩ : DisabledRange)], r.covers w = true) ↔
          ∃ name, (name = w.rule ∨ name = Directive.everyRule) ∧
            IsDisabled (directivesOf comments) name w.line := by
  have hfindings : Engine.structural ⟨"/*stylelint-disable a*/\n/*stylelint-enable*/", none⟩ {} =
      .ok { disabledRanges := [⟨"a", 1, some 2⟩] } := by
    decide +kernel
  exact structural_covers_iff hfindings rfl

end SheetLint
