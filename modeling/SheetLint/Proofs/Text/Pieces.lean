import Mathlib.Tactic.Lemma
import SheetLint.Text

/-!
# Texts and their pieces

Cutting at a character is undone by putting it back (`pieces_intercalate`), and it treats what
stands on either side of the character by itself (`pieces_append`).  It is the library's
`List.splitOn` (`pieces_eq_splitOn`), from which further facts can be taken.

A word is looked for from the front: what is before it ends where the word occurs first, `IsBefore`.
There is always one such text (`isBefore_before`), and no other (`IsBefore.before_eq`), so that
`before` can be replaced by the relation and the other way round.

A text is without an ending what stands before it there, and nothing when it ends otherwise; an
ending of several parts can be taken off part by part, the last one first (`without?_append`).
-/

namespace SheetLint.Text

/-! ### Pieces -/

lemma pieces_eq_splitOn (separator : Char) (text : List Char) :
    pieces separator text = text.splitOn separator := by
  fun_induction pieces separator text with
  | case1 => rfl
  | case2 rest ih => rw [List.splitOn_cons_eq_if_modifyHead, if_pos (beq_self_eq_true _), ih]
  | case3 c rest hc hpieces ih => exact absurd (ih.symm.trans hpieces) (List.splitOn_ne_nil _ _)
  | case4 c rest hc piece more hpieces ih =>
    rw [List.splitOn_cons_eq_if_modifyHead, if_neg (by simpa using hc), ← ih, hpieces]
    rfl

lemma pieces_ne_nil (separator : Char) (text : List Char) : pieces separator text ≠ [] := by
  rw [pieces_eq_splitOn]
  exact List.splitOn_ne_nil _ _

lemma pieces_append (separator : Char) (front back : List Char) :
    pieces separator (front ++ separator :: back) =
      pieces separator front ++ pieces separator back := by
  simp only [pieces_eq_splitOn]
  exact List.splitOn_append_cons_self _ _

lemma pieces_of_not_mem {separator : Char} {text : List Char} (h : separator ∉ text) :
    pieces separator text = [text] := by
  rw [pieces_eq_splitOn]
  exact List.splitOn_eq_singleton h

/-- **Pieces put together** are found again. -/
lemma pieces_intercalate {separator : Char} {ps : List (List Char)} (hps : ps ≠ [])
    (h : ∀ p ∈ ps, separator ∉ p) : pieces separator ([separator].intercalate ps) = ps := by
  rw [pieces_eq_splitOn]
  exact List.splitOn_intercalate separator h hps

lemma exists_pieces_append {separator : Char} {back : List Char} (h : separator ∉ back)
    (text : List Char) : ∃ front last, pieces separator text = front ++ [last] ∧
      pieces separator (text ++ back) = front ++ [last ++ back] := by
  fun_induction pieces separator text with
  | case1 => exact ⟨[], [], rfl, pieces_of_not_mem h⟩
  | case2 rest ih =>
    obtain ⟨front, last, hrest, hmore⟩ := ih
    refine ⟨[] :: front, last, by rw [hrest, List.cons_append], ?_⟩
    rw [List.cons_append, pieces, if_pos rfl, hmore, List.cons_append]
  | case3 c rest hc hpieces ih => exact absurd hpieces (pieces_ne_nil separator rest)
  | case4 c rest hc piece more hpieces ih =>
    obtain ⟨front, last, hrest, hmore⟩ := ih
    rw [hrest] at hpieces
    rw [List.cons_append, pieces, if_neg hc, hmore]
    cases front with
    | nil =>
      obtain ⟨rfl, rfl⟩ := List.cons.inj hpieces
      exact ⟨[], c :: last, rfl, rfl⟩
    | cons first front =>
      obtain ⟨rfl, rfl⟩ := List.cons.inj hpieces
      exact ⟨(c :: first) :: front, last, rfl, rfl⟩

/-! ### The first character of a class -/

lemma breakAt_of_forall {p : Char → Bool} {text : List Char} (h : ∀ c ∈ text, p c = false) :
    breakAt p text = (text, none) := by
  induction text with
  | nil => rfl
  | cons c text ih =>
    obtain ⟨hc, htext⟩ := List.forall_mem_cons.mp h
    rw [breakAt, hc, if_neg Bool.false_ne_true, ih htext]

lemma breakAt_append {p : Char → Bool} {front : List Char} (h : ∀ c ∈ front, p c = false) {c : Char}
    (hc : p c = true) (back : List Char) : breakAt p (front ++ c :: back) = (front, some back) := by
  induction front with
  | nil => rw [List.nil_append, breakAt, if_pos hc]
  | cons x front ih =>
    obtain ⟨hx, hfront⟩ := List.forall_mem_cons.mp h
    rw [List.cons_append, breakAt, hx, if_neg Bool.false_ne_true, ih hfront]

/-! ### The first occurrence of a word -/

/-- `front` is the text before the first occurrence of the word, or the whole text when the word
does not occur. -/
inductive IsBefore (word : List Char) : List Char → List Char → Prop where
  | whole {text : List Char} (absent : ¬ word <:+: text) : IsBefore word text text
  | front {front back : List Char}
    (first : ∀ front' back', front ++ word ++ back = front' ++ word ++ back' →
      front.length ≤ front'.length) : IsBefore word front (front ++ word ++ back)

lemma before_of_absent {word text : List Char} (h : ¬ word <:+: text) :
    before word text = text := by
  induction text with
  | nil => rfl
  | cons c text ih =>
    have hhere : ¬ word.isPrefixOf (c :: text) = true := fun hword =>
      h (List.isPrefixOf_iff_prefix.mp hword).isInfix
    rw [before, if_neg hhere, ih fun hlater => h (hlater.trans (List.suffix_cons c text).isInfix)]

lemma before_of_first {word front back : List Char} (hword : word ≠ [])
    (h : ∀ front' back', front ++ word ++ back = front' ++ word ++ back' →
      front.length ≤ front'.length) : before word (front ++ word ++ back) = front := by
  induction front with
  | nil =>
    obtain ⟨c, rest, rfl⟩ := List.exists_cons_of_ne_nil hword
    exact if_pos (List.isPrefixOf_iff_prefix.mpr (List.prefix_append _ _))
  | cons c front ih =>
    have hhere : ¬ word.isPrefixOf (c :: (front ++ word ++ back)) = true := by
      intro hhere
      obtain ⟨back', hback⟩ := List.isPrefixOf_iff_prefix.mp hhere
      exact absurd (h [] back' hback.symm) (Nat.not_succ_le_zero _)
    have hlater := ih fun front' back' heq =>
      Nat.le_of_succ_le_succ (h (c :: front') back' (congrArg (c :: ·) heq))
    rw [List.cons_append, List.cons_append, before, if_neg hhere, hlater]

lemma isBefore_before {word : List Char} (hword : word ≠ []) (text : List Char) :
    IsBefore word (before word text) text := by
  induction text with
  | nil => exact .whole fun hinfix => hword (List.infix_nil.mp hinfix)
  | cons c text ih =>
    by_cases hhere : word.isPrefixOf (c :: text) = true
    · obtain ⟨back, hback⟩ := List.isPrefixOf_iff_prefix.mp hhere
      rw [before, if_pos hhere, ← hback, ← List.nil_append word]
      exact .front fun _ _ _ => Nat.zero_le _
    · rw [before, if_neg hhere]
      rw [List.isPrefixOf_iff_prefix] at hhere
      generalize before word text = front at ih
      cases ih with
      | whole absent => exact .whole fun hinfix => (List.infix_cons_iff.mp hinfix).elim hhere absent
      | @front back first =>
        have hlater : IsBefore word (c :: front) (c :: front ++ word ++ back) := by
          refine .front fun front' back' heq => ?_
          cases front' with
          | nil => exact absurd ⟨back', heq.symm⟩ hhere
          | cons c' front' => exact Nat.succ_le_succ (first front' back' (List.cons.inj heq).2)
        exact hlater

/-- **The text before a word** is what is found. -/
lemma IsBefore.before_eq {word front text : List Char} (h : IsBefore word front text)
    (hword : word ≠ []) : before word text = front := by
  cases h with
  | whole absent => exact before_of_absent absent
  | front first => exact before_of_first hword first

/-! ### Endings -/

lemma eq_append_of_without? {ending text front : List Char}
    (h : without? ending text = some front) : text = front ++ ending := by
  unfold without? behind? at h
  split at h
  · next hending =>
    obtain ⟨rest, hrest⟩ := List.isPrefixOf_iff_prefix.mp hending
    rw [Option.map_some, ← hrest, List.drop_left] at h
    have htext := congrArg List.reverse hrest
    rw [List.reverse_append, List.reverse_reverse, List.reverse_reverse] at htext
    rw [← htext, ← Option.some.inj h]
  · exact nomatch h

lemma without?_eq_some_iff {ending text front : List Char} :
    without? ending text = some front ↔ text = front ++ ending := by
  refine ⟨eq_append_of_without?, ?_⟩
  rintro rfl
  simp [without?, behind?]

/-- **Two endings in a row** are one ending. -/
lemma without?_append (front back text : List Char) :
    without? (front ++ back) text = (without? back text).bind (without? front) := by
  ext shorter
  simp only [Option.bind_eq_some_iff, without?_eq_some_iff]
  constructor
  · rintro rfl
    exact ⟨shorter ++ front, (List.append_assoc _ _ _).symm, rfl⟩
  · rintro ⟨_, rfl, rfl⟩
    exact List.append_assoc _ _ _

end SheetLint.Text
