import SheetLint.Proofs.DisabledRange.Opening

/-!
# Ranges are well formed

Comments stand on lines of their source, and they begin on lines that never decrease.  So a range
begins on a line of the source or right behind the last one, and it does not end before it begins:
the directive that ends it stands no further up than the one that opened it.  Right behind the last
line begins what a comment at the end disables on the next line.

While directives are read, a range is changed only by being ended and none is lost, `Extends`; and
no second range of a name is opened while the first one is open, `AtMostOneOpen`.  The first of
these is about any two prefixes of the comments, so it also says that a range that has been ended is
left as it is.

`structural_ranges` has all three for every source that is accepted, whether or not directives are
heeded.
-/

namespace SheetLint

open Stylesheet

lemma mem_of_mem_directivesOf {comments : List Comment} {p : DirectiveComment}
    (h : p ∈ directivesOf comments) : p.1 ∈ comments := by
  obtain ⟨c, hc, hp⟩ := List.mem_filterMap.mp h
  obtain ⟨d, -, rfl⟩ := Option.map_eq_some_iff.mp hp
  exact hc

namespace DisabledRange

/-! ### Ranges that are there stay there -/

/-- The range is still as it was, but that it may have been ended. -/
def IsKeptAs (r kept : DisabledRange) : Prop :=
  kept = r ∨ r.last = none ∧ ∃ line, kept = { r with last := some line }

/-- Each of the ranges is still in its place among the others. -/
def Extends (ranges more : List DisabledRange) : Prop :=
  ∀ (i : Nat) (r : DisabledRange), ranges[i]? = some r →
    ∃ kept, more[i]? = some kept ∧ IsKeptAs r kept

lemma closedBy_cases (p : DirectiveComment) (r : DisabledRange) :
    closedBy p r = r ∨ r.last = none ∧ closedBy p r = { r with last := some p.1.firstLine } := by
  by_cases hlast : r.last = none
  · cases hends : p.2.ends r.rule with
    | false => exact Or.inl (closedBy_of_not_ends hends)
    | true =>
      by_cases hcommand : p.2.command = .enable
      · exact Or.inr ⟨hlast, closedBy_of_ends hcommand hlast hends⟩
      · exact Or.inl (closedBy_of_not_enable hcommand r)
  · exact Or.inl (closedBy_of_closed p hlast)

lemma IsKeptAs.trans {r kept further : DisabledRange} (h : IsKeptAs r kept)
    (hnext : IsKeptAs kept further) : IsKeptAs r further := by
  rcases h with rfl | ⟨hopen, line, rfl⟩
  · exact hnext
  · rcases hnext with rfl | ⟨hlast, -⟩
    · exact Or.inr ⟨hopen, line, rfl⟩
    · exact nomatch hlast

lemma Extends.refl (ranges : List DisabledRange) : Extends ranges ranges :=
  fun _ r hr => ⟨r, hr, Or.inl rfl⟩

lemma Extends.trans {ranges more further : List DisabledRange} (h : Extends ranges more)
    (hnext : Extends more further) : Extends ranges further := by
  intro i r hr
  obtain ⟨kept, hmore, hkept⟩ := h i r hr
  obtain ⟨last, hfurther, hlast⟩ := hnext i kept hmore
  exact ⟨last, hfurther, hkept.trans hlast⟩

lemma extends_apply (ranges : List DisabledRange) (p : DirectiveComment) :
    Extends ranges (apply ranges p.1 p.2) := by
  intro i r hr
  obtain ⟨hi, -⟩ := List.getElem?_eq_some_iff.mp hr
  refine ⟨closedBy p r, ?_, ?_⟩
  · rw [(apply_eq_append ranges p).1, List.getElem?_append_left (by rwa [List.length_map]),
      List.getElem?_map, hr, Option.map_some]
  · rcases closedBy_cases p r with hsame | ⟨hopen, hended⟩
    · exact Or.inl hsame
    · exact Or.inr ⟨hopen, _, hended⟩

lemma extends_read (ranges : List DisabledRange) (c : Comment) :
    Extends ranges (read ranges c) := by
  unfold DisabledRange.read
  split
  · exact extends_apply ranges (c, _)
  · exact Extends.refl ranges

/-- **Reading on.**  More comments extend the ranges of the first ones. -/
lemma extends_ofComments {front comments : List Comment} (h : front <+: comments) :
    Extends (ofComments front) (ofComments comments) := by
  obtain ⟨rest, rfl⟩ := h
  have hsplit : ofComments (front ++ rest) = rest.foldl read (ofComments front) := List.foldl_append
  rw [hsplit]
  clear hsplit
  generalize ofComments front = ranges
  induction rest generalizing ranges with
  | nil => exact Extends.refl ranges
  | cons c rest ih => exact (extends_read ranges c).trans (ih (read ranges c))

/-! ### One open range of a name -/

/-- No name has two open ranges. -/
def AtMostOneOpen (ranges : List DisabledRange) : Prop :=
  ∀ name, ranges.countP (·.isOpenFor name) ≤ 1

lemma isOpenFor_iff (r : DisabledRange) (name : String) :
    r.isOpenFor name = true ↔ r.last = none ∧ r.rule = name := by
  simp [isOpenFor]

lemma AtMostOneOpen.disable {ranges : List DisabledRange} (h : AtMostOneOpen ranges)
    (rule : String) (line : Nat) : AtMostOneOpen (disable ranges rule line) := by
  unfold DisabledRange.disable
  split
  · exact h
  · next hnone =>
    intro name
    rw [List.countP_append, List.countP_singleton]
    by_cases hname : name = rule
    · subst hname
      have hzero : ranges.countP (·.isOpenFor name) = 0 := by
        rw [List.countP_eq_zero]
        intro r hr hopen
        exact hnone (List.any_eq_true.mpr ⟨r, hr, hopen⟩)
      rw [hzero]
      split <;> omega
    · rw [if_neg]
      · exact h name
      · rw [isOpenFor_iff]
        exact fun hopen => hname hopen.2.symm

lemma AtMostOneOpen.foldl_disable {ranges : List DisabledRange} (h : AtMostOneOpen ranges)
    (names : List String) (line : Nat) :
    AtMostOneOpen (names.foldl (DisabledRange.disable · · line) ranges) := by
  induction names generalizing ranges with
  | nil => exact h
  | cons name names ih => exact ih (h.disable name line)

lemma AtMostOneOpen.append_ofLine {ranges : List DisabledRange} (h : AtMostOneOpen ranges)
    (names : List String) (line : Nat) :
    AtMostOneOpen (ranges ++ names.map (ofLine · line)) := by
  intro name
  have hzero : (names.map (ofLine · line)).countP (·.isOpenFor name) = 0 := by
    rw [List.countP_eq_zero]
    intro r hr hopen
    obtain ⟨rule, -, rfl⟩ := List.mem_map.mp hr
    exact nomatch ((isOpenFor_iff _ _).mp hopen).1
  rw [List.countP_append, hzero]
  exact h name

lemma AtMostOneOpen.map_enable {ranges : List DisabledRange} (h : AtMostOneOpen ranges)
    (d : Directive) (line : Nat) : AtMostOneOpen (ranges.map (enable d line)) := by
  intro name
  rw [List.countP_map]
  refine Nat.le_trans (List.countP_mono_left fun r _ hopen => ?_) (h name)
  rw [Function.comp_apply, isOpenFor_iff, rule_enable] at hopen
  rw [isOpenFor_iff]
  refine ⟨?_, hopen.2⟩
  by_contra hclosed
  rw [enable_of_closed hclosed] at hopen
  exact hclosed hopen.1

lemma AtMostOneOpen.apply {ranges : List DisabledRange} (h : AtMostOneOpen ranges) (c : Comment)
    (d : Directive) : AtMostOneOpen (apply ranges c d) := by
  unfold DisabledRange.apply
  cases d.command with
  | disable => exact h.foldl_disable d.targets c.firstLine
  | disableLine => exact h.append_ofLine d.targets c.firstLine
  | disableNextLine => exact h.append_ofLine d.targets (c.lastLine + 1)
  | enable => exact h.map_enable d c.firstLine

lemma atMostOneOpen_ofDirectives (ds : List DirectiveComment) :
    AtMostOneOpen (ofDirectives ds) := by
  induction ds using List.reverseRecOn with
  | nil => exact fun _ => Nat.zero_le 1
  | append_singleton ds p ih =>
    rw [ofDirectives, List.foldl_append]
    exact ih.apply p.1 p.2

/-! ### The lines of a range -/

/-- The range lies in a source that has so many lines, or begins right behind it, and does not end
before it begins. -/
structure IsWellFormed (lines : Nat) (r : DisabledRange) : Prop where
  one_le_start : 1 ≤ r.start
  start_le : r.start ≤ lines + 1
  start_le_last : ∀ last, r.last = some last → r.start ≤ last

section

variable {lines : Nat} {p : DirectiveComment} {r : DisabledRange}

lemma isWellFormed_ofLine {line : Nat} (rule : String) (hone : 1 ≤ line) (hle : line ≤ lines + 1) :
    (ofLine rule line).IsWellFormed lines := by
  refine ⟨hone, hle, fun last hlast => ?_⟩
  cases hlast
  exact Nat.le_refl line

lemma IsOpenedBy.isWellFormed (h : IsOpenedBy p r) (hp : p.1.StandsWithin lines) :
    r.IsWellFormed lines := by
  obtain ⟨hone, hle, hlast⟩ := hp
  have hfirst : p.1.firstLine ≤ lines + 1 := by omega
  rcases h with ⟨-, hr⟩ | ⟨-, hr⟩ | ⟨-, hr⟩
  · rw [hr]
    exact ⟨hone, hfirst, nofun⟩
  · rw [hr]
    exact isWellFormed_ofLine r.rule hone hfirst
  · rw [hr]
    exact isWellFormed_ofLine r.rule (Nat.le_add_left 1 _) (Nat.succ_le_succ hlast)

lemma IsWellFormed.closedBy (h : r.IsWellFormed lines)
    (hopen : r.last = none → r.start ≤ p.1.firstLine) : (closedBy p r).IsWellFormed lines := by
  rcases closedBy_cases p r with hsame | ⟨hlast, hended⟩
  · rw [hsame]
    exact h
  · rw [hended]
    refine ⟨h.one_le_start, h.start_le, fun last heq => ?_⟩
    cases heq
    exact hopen hlast

end

/-- **The lines of ranges.**  By induction on the directives: an open range begins where one of them
does, and so no further down than the next one, which may end it. -/
lemma isWellFormed_ofDirectives {lines : Nat} {ds : List DirectiveComment}
    (hlines : ds.Pairwise fun p q => p.1.firstLine ≤ q.1.firstLine)
    (hds : ∀ p ∈ ds, p.1.StandsWithin lines) : ∀ r ∈ ofDirectives ds, r.IsWellFormed lines := by
  induction ds using List.reverseRecOn with
  | nil => exact fun _ hr => nomatch hr
  | append_singleton ds p ih =>
    obtain ⟨hbefore, -, hlast⟩ := List.pairwise_append.mp hlines
    have hranges := ih hbefore fun q hq => hds q (List.mem_append_left _ hq)
    have hagrees := agrees_foldl ds hbefore
    have hstep : ofDirectives (ds ++ [p]) = DisabledRange.apply (ofDirectives ds) p.1 p.2 := by
      simp [ofDirectives]
    rw [hstep, (apply_eq_append _ p).1]
    intro r hr
    rcases List.mem_append.mp hr with hold | hnew
    · obtain ⟨earlier, hearlier, rfl⟩ := List.mem_map.mp hold
      refine (hranges earlier hearlier).closedBy fun hopen => ?_
      obtain ⟨⟨q, hq, hstart⟩, -⟩ := hagrees.opened earlier hearlier hopen
      rw [hstart]
      exact hlast q hq p (List.mem_singleton_self p)
    · exact ((apply_eq_append _ p).2 r hnew).2.isWellFormed (hds p (by simp))

end DisabledRange

open DisabledRange

/-- **Every reported range is well formed.**  It begins on a line of the source or right behind the
last one, and does not end before it begins; no name has two open ranges; and the ranges of the
first comments are still there behind all comments, as they were or ended. -/
theorem structural_ranges {source : Source} {settings : EngineSettings} {findings : Findings}
    (hfindings : Engine.structural source settings = .ok findings) :
    (∀ r ∈ findings.disabledRanges, r.IsWellFormed (source.text.toList.count '\n' + 1)) ∧
      AtMostOneOpen findings.disabledRanges ∧
      ∃ dialect comments, Engine.dialectOf source settings = .ok dialect ∧
        scan dialect source.text.toList = .ok comments ∧
        findings.disabledRanges =
          (if settings.ignoreDisables then [] else ofComments comments) ∧
        ∀ front, front <+: comments → Extends (ofComments front) (ofComments comments) := by
  obtain ⟨dialect, comments, hdialect, hscan, hranges⟩ := exists_scan_of_structural hfindings
  have hlines := pairwise_directivesOf (pairwise_firstLine_of_scan hscan)
  have hwithin : ∀ p ∈ directivesOf comments,
      p.1.StandsWithin (source.text.toList.count '\n' + 1) :=
    fun p hp => standsWithin_of_scan hscan p.1 (mem_of_mem_directivesOf hp)
  refine ⟨fun r hr => ?_, fun name => ?_, dialect, comments, hdialect, hscan, hranges,
    fun front hfront => extends_ofComments hfront⟩
  · rw [hranges] at hr
    split at hr
    · exact nomatch hr
    · rw [ofComments_eq_ofDirectives] at hr
      exact isWellFormed_ofDirectives hlines hwithin r hr
  · rw [hranges]
    split
    · exact Nat.zero_le 1
    · rw [ofComments_eq_ofDirectives]
      exact atMostOneOpen_ofDirectives (directivesOf comments) name

/-- A source of one line, with a range right behind it and one that ends where it begins. -/
theorem structural_ranges_oneLine :
    (∀ r ∈ [(⟨"a", 2, some 2⟩ : DisabledRange), ⟨"b", 1, some 1⟩], r.IsWellFormed
        ("/*stylelint-disable-next-line a*//*stylelint-disable b*//*stylelint-enable*/".toList.count
          '\n' + 1)) ∧
      AtMostOneOpen [⟨"a", 2, some 2⟩, ⟨"b", 1, some 1⟩] ∧
      ∃ dialect comments,
        Engine.dialectOf
          ⟨"/*stylelint-disable-next-line a*//*stylelint-disable b*//*stylelint-enable*/", none⟩
            {} = .ok dialect ∧
        scan dialect
          "/*stylelint-disable-next-line a*//*stylelint-disable b*//*stylelint-enable*/".toList =
            .ok comments ∧
        [⟨"a", 2, some 2⟩, ⟨"b", 1, some 1⟩] = (if false then [] else ofComments comments) ∧
        ∀ front, front <+: comments → Extends (ofComments front) (ofComments comments) := by
  have hfindings : Engine.structural
      ⟨"/*stylelint-disable-next-line a*//*stylelint-disable b*//*stylelint-enable*/", none⟩ {} =
        .ok { disabledRanges := [⟨"a", 2, some 2⟩, ⟨"b", 1, some 1⟩] } := by
    decide +kernel
  exact structural_ranges hfindings

end SheetLint
