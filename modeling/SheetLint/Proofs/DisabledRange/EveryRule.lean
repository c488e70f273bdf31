import SheetLint.Proofs.DisabledRange.Coverage

/-!
# Two ways to speak of every rule

A directive speaks of every rule by an empty list or by the name `all`.  For the commands that
disable rules both mean the same, since both open ranges under that name.

An `enable` reads the name as one among others: with an empty list it ends all open ranges, with
`all` only the one of that name.  So both ways mean the same where no range of another name is open,
`OpensOnlyAll`, and can differ otherwise, `ofComments_respelled_differs`.

Comments are respelled one by one, `IsRespelled`, in any number and at any place among others.
Reading a respelled comment behind the same ranges gives the same ranges (`IsRespelled.read_eq`),
and so all of them do: `ofComments_respelled`.  The condition is on the `enable` comments alone that
are respelled, and on the ranges in front of each.
-/

namespace SheetLint.DisabledRange

open Stylesheet

/-- The two directives differ in no more than how they speak of every rule. -/
def SaysTheSame (d d' : Directive) : Prop :=
  d'.command = d.command ∧
    (d.rules = [] ∧ d'.rules = [Directive.everyRule] ∨
      d.rules = [Directive.everyRule] ∧ d'.rules = [])

/-- The comment is another one with its directive respelled. -/
structure IsRespelled (c c' : Comment) : Prop where
  firstLine : c'.firstLine = c.firstLine
  lastLine : c'.lastLine = c.lastLine
  directive : ∃ d d', Directive.ofText? c.text = some d ∧ Directive.ofText? c'.text = some d' ∧
    SaysTheSame d d'

/-- Every open range is about every rule. -/
def OpensOnlyAll (ranges : List DisabledRange) : Prop :=
  ∀ r ∈ ranges, r.last = none → r.rule = Directive.everyRule

lemma SaysTheSame.targets_eq {d d' : Directive} (h : SaysTheSame d d') :
    d'.targets = d.targets := by
  unfold Directive.targets
  rcases h.2 with ⟨hd, hd'⟩ | ⟨hd, hd'⟩ <;> rw [hd, hd'] <;> rfl

lemma SaysTheSame.ends_everyRule {d d' : Directive} (h : SaysTheSame d d') :
    d'.ends Directive.everyRule = d.ends Directive.everyRule := by
  unfold Directive.ends
  rcases h.2 with ⟨hd, hd'⟩ | ⟨hd, hd'⟩ <;> rw [hd, hd'] <;> rfl

/-- An `enable` ends the same ranges either way, if all that it could end are about every rule. -/
lemma SaysTheSame.map_enable {d d' : Directive} (h : SaysTheSame d d')
    {ranges : List DisabledRange} (hopen : OpensOnlyAll ranges) (line : Nat) :
    ranges.map (enable d' line) = ranges.map (enable d line) := by
  refine List.map_congr_left fun r hr => ?_
  by_cases hlast : r.last = none
  · unfold enable
    rw [hopen r hr hlast, h.ends_everyRule]
  · rw [enable_of_closed hlast, enable_of_closed hlast]

/-- **One comment respelled.**  What is read behind the same ranges is the same. -/
lemma IsRespelled.read_eq {c c' : Comment} (h : IsRespelled c c') {ranges : List DisabledRange}
    (hopen : (∃ d, Directive.ofText? c.text = some d ∧ d.command = .enable) →
      OpensOnlyAll ranges) :
    read ranges c' = read ranges c := by
  obtain ⟨d, d', hd, hd', hsame⟩ := h.directive
  unfold DisabledRange.read
  rw [hd, hd']
  show apply ranges c' d' = apply ranges c d
  unfold apply
  rw [hsame.1, hsame.targets_eq, h.firstLine, h.lastLine]
  cases hcommand : d.command with
  | disable | disableLine | disableNextLine => rfl
  | enable => exact hsame.map_enable (hopen ⟨d, hd, hcommand⟩) c.firstLine

/-- Reading respelled comments behind the same ranges.  By induction on the comments: the ranges
behind the first one are the same again. -/
lemma foldl_read_respelled {comments comments' : List Comment} {ranges : List DisabledRange}
    (h : List.Forall₂ (fun c c' => c' = c ∨ IsRespelled c c') comments comments')
    (hopen : ∀ i c c', comments[i]? = some c → comments'[i]? = some c' → c' ≠ c →
      (∃ d, Directive.ofText? c.text = some d ∧ d.command = .enable) →
        OpensOnlyAll ((comments.take i).foldl read ranges)) :
    comments'.foldl read ranges = comments.foldl read ranges := by
  induction h generalizing ranges with
  | nil => rfl
  | @cons c c' comments comments' hfirst hrest ih =>
    have hread : read ranges c' = read ranges c := by
      rcases hfirst with rfl | hrespelled
      · rfl
      · by_cases hsame : c' = c
        · rw [hsame]
        · exact hrespelled.read_eq (hopen 0 c c' rfl rfl hsame)
    rw [List.foldl_cons, List.foldl_cons, hread]
    exact ih fun i d d' hd hd' => hopen (i + 1) d d' hd hd'

/-- **No list says the same as a list of `all`.**  Respelling directives leaves all ranges of a
source as they are, provided that an `enable` is respelled only where every open range is about
every rule. -/
theorem ofComments_respelled {comments comments' : List Comment}
    (h : List.Forall₂ (fun c c' => c' = c ∨ IsRespelled c c') comments comments')
    (hopen : ∀ i c c', comments[i]? = some c → comments'[i]? = some c' → c' ≠ c →
      (∃ d, Directive.ofText? c.text = some d ∧ d.command = .enable) →
        OpensOnlyAll (ofComments (comments.take i))) :
    ofComments comments' = ofComments comments :=
  foldl_read_respelled h hopen

/-- A `disable` and an `enable`, both respelled. -/
theorem ofComments_respelled_both :
    ofComments [⟨"stylelint-disable all".toList, 1, 1⟩, ⟨"stylelint-enable".toList, 2, 2⟩] =
      ofComments [⟨"stylelint-disable".toList, 1, 1⟩, ⟨"stylelint-enable all".toList, 2, 2⟩] := by
  refine ofComments_respelled (.cons (Or.inr ?_) (.cons (Or.inr ?_) .nil)) ?_
  · exact ⟨rfl, rfl, ⟨.disable, []⟩, ⟨.disable, ["all"]⟩, by decide +kernel, by decide +kernel, rfl,
      Or.inl ⟨rfl, rfl⟩⟩
  · exact ⟨rfl, rfl, ⟨.enable, ["all"]⟩, ⟨.enable, []⟩, by decide +kernel, by decide +kernel, rfl,
      Or.inr ⟨rfl, rfl⟩⟩
  · rintro (_ | _ | i) c c' hc hc' - henable
    · cases hc
      obtain ⟨d, hd, hcommand⟩ := henable
      exact absurd hcommand (by
        rw [show d = ⟨.disable, []⟩ from Option.some.inj (hd.symm.trans (by decide +kernel))]
        decide)
    · cases hc
      unfold OpensOnlyAll
      decide +kernel
    · exact nomatch hc

/-- Behind a range of another name an `enable` of `all` lets a warning of that name stay covered. -/
theorem ofComments_respelled_differs :
    (ofComments [⟨"stylelint-disable a".toList, 1, 1⟩,
        ⟨"stylelint-enable all".toList, 2, 2⟩]).any (·.covers ⟨3, 1, "a", .error, ""⟩) = true ∧
      (ofComments [⟨"stylelint-disable a".toList, 1, 1⟩,
        ⟨"stylelint-enable".toList, 2, 2⟩]).any (·.covers ⟨3, 1, "a", .error, ""⟩) = false := by
  decide +kernel

end SheetLint.DisabledRange
