import SheetLint.Proofs.DisabledRange.Coverage

/-!
# Which directive opens a range

A directive opens some ranges behind those that are there, and may end some of these
(`apply_eq_append`).  So the ranges of a source are those that its directives open, one directive
after the other, each as later directives leave it: `ofDirectives_eq_flatMap`.

With this it can be asked of a covered warning which directive is the reason, by its number.  Three
kinds can be behind an `enable` of the rule of the warning, `MayCoverBehind`: one for single lines,
a `disable` that comes later, and an earlier `disable` of every rule if the `enable` lists other
names only.  For a range has one name, and an `enable` ends the ranges whose names it lists.  The
last kind does occur, `structural_covers_enabled_rule`.

What ends a range is looked for among the directives behind the one that opens it.  They begin on no
earlier line, so that a range which such an `enable` has ended covers nothing below that line
(`exists_last_through`).
-/

namespace SheetLint.DisabledRange

open Stylesheet

/-! ### One directive -/

/-- What a directive makes of a range that is there. -/
def closedBy (p : DirectiveComment) (r : DisabledRange) : DisabledRange :=
  if p.2.command = .enable then enable p.2 p.1.firstLine r else r

/-- The ranges that a directive opens behind others. -/
def openedAt (ranges : List DisabledRange) (p : DirectiveComment) : List DisabledRange :=
  (apply ranges p.1 p.2).drop ranges.length

lemma closedBy_of_closed (p : DirectiveComment) {r : DisabledRange} (h : r.last ≠ none) :
    closedBy p r = r := by
  rw [closedBy, enable_of_closed h, ite_self]

lemma closedBy_of_not_enable {p : DirectiveComment} (h : p.2.command ≠ .enable)
    (r : DisabledRange) : closedBy p r = r :=
  if_neg h

lemma closedBy_of_not_ends {p : DirectiveComment} {r : DisabledRange}
    (h : p.2.ends r.rule = false) : closedBy p r = r := by
  rw [closedBy, enable_of_not_ends h, ite_self]

lemma closedBy_of_ends {p : DirectiveComment} (hcommand : p.2.command = .enable)
    {r : DisabledRange} (hopen : r.last = none) (hends : p.2.ends r.rule = true) :
    closedBy p r = { r with last := some p.1.firstLine } := by
  rw [closedBy, if_pos hcommand, enable_of_ends hopen hends]

/-- Which range a directive opens under a name. -/
def IsOpenedBy (p : DirectiveComment) (r : DisabledRange) : Prop :=
  p.2.command = .disable ∧ r = ⟨r.rule, p.1.firstLine, none⟩ ∨
    p.2.command = .disableLine ∧ r = ofLine r.rule p.1.firstLine ∨
    p.2.command = .disableNextLine ∧ r = ofLine r.rule (p.1.lastLine + 1)

lemma IsOpenedBy.command_ne {p : DirectiveComment} {r : DisabledRange} (h : IsOpenedBy p r) :
    p.2.command ≠ .enable := by
  rcases h with ⟨hcommand, -⟩ | ⟨hcommand, -⟩ | ⟨hcommand, -⟩ <;> simp [hcommand]

lemma IsOpenedBy.last_eq {p : DirectiveComment} {r : DisabledRange} (h : IsOpenedBy p r)
    (hdisable : p.2.command = .disable) : r.last = none := by
  rcases h with ⟨-, hr⟩ | ⟨hcommand, -⟩ | ⟨hcommand, -⟩
  · rw [hr]
  · exact nomatch hdisable.symm.trans hcommand
  · exact nomatch hdisable.symm.trans hcommand

/-- **One directive.**  It ends some of the ranges that are there and opens others behind them,
under the names that it lists. -/
lemma apply_eq_append (ranges : List DisabledRange) (p : DirectiveComment) :
    apply ranges p.1 p.2 = ranges.map (closedBy p) ++ openedAt ranges p ∧
      ∀ r ∈ openedAt ranges p, p.2.Lists r.rule ∧ IsOpenedBy p r := by
  have hsplit {closed opened : List DisabledRange}
      (happly : apply ranges p.1 p.2 = closed ++ opened)
      (hlength : closed.length = ranges.length) : openedAt ranges p = opened := by
    rw [openedAt, happly, List.drop_left' hlength]
  have hkept (hcommand : p.2.command ≠ .enable) : ranges.map (closedBy p) = ranges :=
    List.map_id'' (closedBy_of_not_enable hcommand) ranges
  have hlines (line : Nat) : ∀ r ∈ p.2.targets.map (ofLine · line),
      p.2.Lists r.rule ∧ r = ofLine r.rule line := by
    intro r hr
    obtain ⟨name, hname, rfl⟩ := List.mem_map.mp hr
    exact ⟨(mem_targets_iff p.2 name).mp hname, rfl⟩
  -- Commands that disable leave the old ranges as they are, and `enable` opens none.
  cases hcommand : p.2.command with
  | disable =>
    obtain ⟨opened, hfold, hopened⟩ := exists_foldl_disable p.2.targets p.1.firstLine ranges
    have happly : apply ranges p.1 p.2 = ranges ++ opened := by
      rw [apply, hcommand]
      exact hfold
    rw [hkept (by simp [hcommand]), hsplit happly rfl]
    refine ⟨happly, fun r hr => ?_⟩
    obtain ⟨hrule, hstart, hlast⟩ := hopened r hr
    exact ⟨(mem_targets_iff p.2 r.rule).mp hrule, Or.inl ⟨hcommand, by rw [← hstart, ← hlast]⟩⟩
  | disableLine =>
    have happly : apply ranges p.1 p.2 = ranges ++ p.2.targets.map (ofLine · p.1.firstLine) := by
      rw [apply, hcommand]
    rw [hkept (by simp [hcommand]), hsplit happly rfl]
    exact ⟨happly, fun r hr => (hlines _ r hr).imp_right fun h => Or.inr (Or.inl ⟨hcommand, h⟩)⟩
  | disableNextLine =>
    have happly : apply ranges p.1 p.2 =
        ranges ++ p.2.targets.map (ofLine · (p.1.lastLine + 1)) := by
      rw [apply, hcommand]
    rw [hkept (by simp [hcommand]), hsplit happly rfl]
    exact ⟨happly, fun r hr => (hlines _ r hr).imp_right fun h => Or.inr (Or.inr ⟨hcommand, h⟩)⟩
  | enable =>
    have happly : apply ranges p.1 p.2 = ranges.map (closedBy p) ++ [] := by
      rw [apply, hcommand, List.append_nil]
      exact List.map_congr_left fun r _ => (if_pos hcommand).symm
    rw [hsplit happly (List.length_map _)]
    exact ⟨happly, fun _ hr => nomatch hr⟩

/-! ### Later directives -/

/-- What is left of a range behind later directives. -/
def through (later : List DirectiveComment) (r : DisabledRange) : DisabledRange :=
  later.foldl (fun r p => closedBy p r) r

lemma through_of_closed (later : List DirectiveComment) {r : DisabledRange} (h : r.last ≠ none) :
    through later r = r := by
  induction later with
  | nil => rfl
  | cons p later ih =>
    have hstep : through (p :: later) r = through later (closedBy p r) := rfl
    rw [hstep, closedBy_of_closed p h, ih]

lemma rule_through (later : List DirectiveComment) (r : DisabledRange) :
    (through later r).rule = r.rule := by
  induction later generalizing r with
  | nil => rfl
  | cons p later ih =>
    have hstep : through (p :: later) r = through later (closedBy p r) := rfl
    rw [hstep, ih]
    unfold closedBy enable
    split
    · split <;> rfl
    · rfl

/-- **A range ends at an `enable` of its name**, if no earlier one has ended it.  By induction on
the directives up to it, which begin on no later line. -/
lemma exists_last_through {later : List DirectiveComment}
    (hlines : later.Pairwise fun p q => p.1.firstLine ≤ q.1.firstLine) {p : DirectiveComment}
    (hp : p ∈ later) (hcommand : p.2.command = .enable) {r : DisabledRange} (hopen : r.last = none)
    (hends : p.2.ends r.rule = true) :
    ∃ line, (through later r).last = some line ∧ line ≤ p.1.firstLine := by
  induction later with
  | nil => exact nomatch hp
  | cons q later ih =>
    obtain ⟨hfirst, hrest⟩ := List.pairwise_cons.mp hlines
    have hstep : through (q :: later) r = through later (closedBy q r) := rfl
    have hle : q.1.firstLine ≤ p.1.firstLine := by
      rcases List.mem_cons.mp hp with rfl | hmem
      · exact Nat.le_refl _
      · exact hfirst p hmem
    rw [hstep]
    -- the first directive ends the range, or all is said about the others
    by_cases hq : q.2.command = .enable ∧ q.2.ends r.rule = true
    · rw [closedBy_of_ends hq.1 hopen hq.2, through_of_closed later (Option.some_ne_none _)]
      exact ⟨_, rfl, hle⟩
    · have hkept : closedBy q r = r := by
        by_cases henable : q.2.command = .enable
        · exact closedBy_of_not_ends (by simpa [henable] using hq)
        · exact closedBy_of_not_enable henable r
      rw [hkept]
      refine ih hrest ((List.mem_cons.mp hp).resolve_left ?_)
      rintro rfl
      exact hq ⟨hcommand, hends⟩

/-! ### All directives -/

/-- The ranges that directives describe. -/
def ofDirectives (ds : List DirectiveComment) : List DisabledRange :=
  ds.foldl (fun ranges p => apply ranges p.1 p.2) []

/-- The ranges that the directive number `i` opens, as the later ones leave them. -/
def openedBy (ds : List DirectiveComment) (i : Nat) : List DisabledRange :=
  match ds[i]? with
  | some p => (openedAt (ofDirectives (ds.take i)) p).map (through (ds.drop (i + 1)))
  | none => []

/-- A further directive ends some of the ranges that earlier ones have opened. -/
lemma openedBy_concat_of_lt {ds : List DirectiveComment} {i : Nat} (hi : i < ds.length)
    (p : DirectiveComment) : openedBy (ds ++ [p]) i = (openedBy ds i).map (closedBy p) := by
  have hthrough (later : List DirectiveComment) :
      through (later ++ [p]) = closedBy p ∘ through later := by
    funext r
    simp [through]
  unfold openedBy
  rw [List.getElem?_append_left hi, List.take_append_of_le_length (Nat.le_of_lt hi),
    List.drop_append_of_le_length hi, hthrough, List.getElem?_eq_getElem hi]
  simp only [List.map_map]

lemma openedBy_concat_self (ds : List DirectiveComment) (p : DirectiveComment) :
    openedBy (ds ++ [p]) ds.length = openedAt (ofDirectives ds) p := by
  unfold openedBy
  rw [List.getElem?_concat_length, List.take_left, List.drop_of_length_le (by simp)]
  exact List.map_id _

/-- **Each range is opened by a directive.**  The ranges of directives are those that they open, one
directive after the other. -/
theorem ofDirectives_eq_flatMap (ds : List DirectiveComment) :
    ofDirectives ds = (List.range ds.length).flatMap (openedBy ds) := by
  induction ds using List.reverseRecOn with
  | nil => rfl
  | append_singleton ds p ih =>
    have hbefore : (List.range ds.length).flatMap (openedBy (ds ++ [p])) =
        (ofDirectives ds).map (closedBy p) := by
      rw [ih, List.map_flatMap]
      exact List.flatMap_congr fun i hi => openedBy_concat_of_lt (List.mem_range.mp hi) p
    have hstep : ofDirectives (ds ++ [p]) = apply (ofDirectives ds) p.1 p.2 := by
      simp [ofDirectives]
    rw [hstep, (apply_eq_append _ p).1, List.length_append, List.length_singleton,
      List.range_succ, List.flatMap_append, hbefore, List.flatMap_singleton, openedBy_concat_self]

lemma ofComments_eq_ofDirectives (comments : List Comment) :
    ofComments comments = ofDirectives (directivesOf comments) :=
  ofComments_eq comments

/-- **Behind an `enable`.**  The range of an earlier `disable` that still covers a warning is about
every rule, and the `enable` does not end it by its name. -/
lemma rule_eq_of_covers {ds : List DirectiveComment}
    (hlines : ds.Pairwise fun p q => p.1.firstLine ≤ q.1.firstLine) {i k : Nat} (hik : i < k)
    {p q : DirectiveComment} (hp : ds[i]? = some p) (hdisable : p.2.command = .disable)
    (hq : ds[k]? = some q) (henable : q.2.command = .enable) {w : Warning}
    (hlists : q.2.rules = [] ∨ w.rule ∈ q.2.rules) (hline : q.1.firstLine < w.line)
    {r : DisabledRange} (hr : r ∈ openedBy ds i) (hcovers : r.covers w = true) :
    r.rule = Directive.everyRule ∧ p.2.Lists Directive.everyRule ∧ q.2.rules ≠ [] ∧
      Directive.everyRule ∉ q.2.rules := by
  unfold openedBy at hr
  simp only [hp] at hr
  obtain ⟨fresh, hfresh, rfl⟩ := List.mem_map.mp hr
  obtain ⟨hlisted, hopened⟩ := (apply_eq_append _ p).2 fresh hfresh
  simp only [covers, targets, rule_through, Bool.and_eq_true, Bool.or_eq_true, beq_iff_eq]
    at hcovers
  obtain ⟨htargets, hcontains⟩ := hcovers
  -- The `enable` comes later than the `disable`, so it would have ended the range above the
  -- warning.
  have hnot : ¬ (q.2.rules = [] ∨ fresh.rule ∈ q.2.rules) := by
    rw [← ends_iff]
    intro hends
    have hmem : q ∈ ds.drop (i + 1) := by
      refine List.mem_of_getElem? (i := k - (i + 1)) ?_
      rw [List.getElem?_drop, Nat.add_sub_cancel' hik, hq]
    obtain ⟨line, hlast, hle⟩ := exists_last_through (hlines.sublist (List.drop_sublist _ _)) hmem
      henable (hopened.last_eq hdisable) hends
    have hupTo := ((containsLine_iff _ _).mp hcontains).2 line hlast
    omega
  rw [not_or] at hnot
  have hrule : fresh.rule = Directive.everyRule :=
    htargets.resolve_right fun heq => hnot.2 (heq ▸ hlists.resolve_left hnot.1)
  rw [hrule] at hlisted hnot
  rw [rule_through]
  exact ⟨hrule, hlisted, hnot⟩

/-- Which directive may open a range that covers a warning behind the `enable` number `k`: one for
single lines, a later `disable`, or a `disable` of every rule that the `enable` does not name. -/
def MayCoverBehind (ds : List DirectiveComment) (k : Nat) (q : DirectiveComment) (i : Nat)
    (r : DisabledRange) : Prop :=
  ∃ p, ds[i]? = some p ∧
    (p.2.command = .disableLine ∨ p.2.command = .disableNextLine ∨
      p.2.command = .disable ∧
        (k < i ∨ r.rule = Directive.everyRule ∧ p.2.Lists Directive.everyRule ∧
          q.2.rules ≠ [] ∧ Directive.everyRule ∉ q.2.rules))

lemma mayCoverBehind_of_covers {ds : List DirectiveComment}
    (hlines : ds.Pairwise fun p q => p.1.firstLine ≤ q.1.firstLine) {k : Nat}
    {q : DirectiveComment} (hq : ds[k]? = some q) (henable : q.2.command = .enable) {w : Warning}
    (hlists : q.2.rules = [] ∨ w.rule ∈ q.2.rules) (hline : q.1.firstLine < w.line) {i : Nat}
    {r : DisabledRange} (hr : r ∈ openedBy ds i) (hcovers : r.covers w = true) :
    MayCoverBehind ds k q i r := by
  cases hp : ds[i]? with
  | none => simp [openedBy, hp] at hr
  | some p =>
    refine ⟨p, hp, ?_⟩
    cases hcommand : p.2.command with
    | disableLine => exact .inl rfl
    | disableNextLine => exact .inr (.inl rfl)
    | enable =>
      unfold openedBy at hr
      simp only [hp] at hr
      obtain ⟨fresh, hfresh, -⟩ := List.mem_map.mp hr
      exact absurd hcommand ((apply_eq_append _ p).2 fresh hfresh).2.command_ne
    | disable =>
      refine .inr (.inr ⟨rfl, ?_⟩)
      rcases Nat.lt_trichotomy i k with hik | rfl | hki
      · exact .inr (rule_eq_of_covers hlines hik hp hcommand hq henable hlists hline hr hcovers)
      · rw [hp, Option.some.injEq] at hq
        rw [hq, henable] at hcommand
        exact nomatch hcommand
      · exact .inl hki

end DisabledRange

open DisabledRange Stylesheet

/-- **Enabling a rule ends its suppression**, but for a `disable` of every rule where the `enable`
lists other names only.  The ranges of a source are those that its directives open, and behind an
`enable` of its rule a warning is covered by no others than these: ranges of directives for single
lines, of a later `disable`, and of an earlier `disable` of every rule that the `enable` does not
name. -/
theorem structural_opener_of_covers {source : Source} {settings : EngineSettings}
    {findings : Findings} (hfindings : Engine.structural source settings = .ok findings)
    (hon : settings.ignoreDisables = false) :
    ∃ dialect comments, Engine.dialectOf source settings = .ok dialect ∧
      scan dialect source.text.toList = .ok comments ∧
        findings.disabledRanges =
          (List.range (directivesOf comments).length).flatMap (openedBy (directivesOf comments)) ∧
        ∀ k q, (directivesOf comments)[k]? = some q → q.2.command = .enable →
          ∀ w : Warning, (q.2.rules = [] ∨ w.rule ∈ q.2.rules) → q.1.firstLine < w.line →
            ∀ i, ∀ r ∈ openedBy (directivesOf comments) i, r.covers w = true →
              MayCoverBehind (directivesOf comments) k q i r := by
  obtain ⟨dialect, comments, hdialect, hscan, hranges⟩ := exists_scan_of_structural hfindings
  have hlines := pairwise_directivesOf (pairwise_firstLine_of_scan hscan)
  refine ⟨dialect, comments, hdialect, hscan, ?_, ?_⟩
  · rw [hranges, if_neg (by simp [hon]), ofComments_eq_ofDirectives, ofDirectives_eq_flatMap]
  · intro k q hq henable w hlists hline i r hr hcovers
    exact mayCoverBehind_of_covers hlines hq henable hlists hline hr hcovers

/-- An `enable` of `a` ends the range that a `disable` of `a` opened. -/
theorem structural_opener_of_covers_closed :
    ∃ dialect comments,
      Engine.dialectOf ⟨"/*stylelint-disable a*/\n/*stylelint-enable a*/", none⟩ {} = .ok dialect ∧
      scan dialect "/*stylelint-disable a*/\n/*stylelint-enable a*/".toList = .ok comments ∧
        [(⟨"a", 1, some 2⟩ : DisabledRange)] =
          (List.range (directivesOf comments).length).flatMap (openedBy (directivesOf comments)) ∧
        ∀ k q, (directivesOf comments)[k]? = some q → q.2.command = .enable →
          ∀ w : Warning, (q.2.rules = [] ∨ w.rule ∈ q.2.rules) → q.1.firstLine < w.line →
            ∀ i, ∀ r ∈ openedBy (directivesOf comments) i, r.covers w = true →
              MayCoverBehind (directivesOf comments) k q i r := by
  have hfindings : Engine.structural ⟨"/*stylelint-disable a*/\n/*stylelint-enable a*/", none⟩ {} =
      .ok { disabledRanges := [⟨"a", 1, some 2⟩] } := by
    decide +kernel
  exact structural_opener_of_covers hfindings rfl

/-- A `disable` of every rule, and behind it an `enable` of `a` only: the range that the `disable`
opened goes on, and covers a warning of `a` two lines further down. -/
theorem structural_covers_enabled_rule :
    Engine.structural ⟨"/*stylelint-disable*/\n/*stylelint-enable a*/\n", none⟩ {} =
        .ok { disabledRanges := [⟨"all", 1, none⟩] } ∧
      (scan .css "/*stylelint-disable*/\n/*stylelint-enable a*/\n".toList).map directivesOf =
        .ok [(⟨"stylelint-disable".toList, 1, 1⟩, ⟨.disable, []⟩),
          (⟨"stylelint-enable a".toList, 2, 2⟩, ⟨.enable, ["a"]⟩)] ∧
      openedBy [(⟨"stylelint-disable".toList, 1, 1⟩, ⟨.disable, []⟩),
          (⟨"stylelint-enable a".toList, 2, 2⟩, ⟨.enable, ["a"]⟩)] 0 = [⟨"all", 1, none⟩] ∧
      covers ⟨"all", 1, none⟩ ⟨3, 1, "a", .error, ""⟩ = true := by
  decide +kernel

end SheetLint
