import Mathlib.Data.List.TakeWhile
import Mathlib.Tactic.Lemma
import SheetLint.Text

/-!
# Trimming

Trimming takes away the blanks at the ends of a text and nothing else: what stands in front of a
text that is not blank stays when its end is trimmed (`trimEnd_append`), and what stands behind a
word stays when its front is trimmed (`trimStart_word_append`).

A text is `AreBlank` if it is made of blanks only and `IsFreeOfBlanks` if it has none.  Every text
is free of blanks or splits at its first one (`isFreeOfBlanks_or_exists`), which is how words and
lists of names are read.
-/

namespace SheetLint.Text

/-- The text is made of blanks only. -/
def AreBlank (text : List Char) : Prop := ∀ c ∈ text, isBlank c = true

/-- No character of the text is a blank. -/
def IsFreeOfBlanks (text : List Char) : Prop := ∀ c ∈ text, isBlank c = false

instance (text : List Char) : Decidable (IsFreeOfBlanks text) :=
  decidable_of_iff ((text.all fun c => !isBlank c) = true) (by simp [IsFreeOfBlanks])

lemma areBlank_nil : AreBlank [] := List.forall_mem_nil _

lemma AreBlank.notMem {text : List Char} (h : AreBlank text) {c : Char} (hc : isBlank c = false) :
    c ∉ text :=
  fun hmem => Bool.false_ne_true (hc.symm.trans (h c hmem))

lemma isFreeOfBlanks_or_exists (text : List Char) : IsFreeOfBlanks text ∨
    ∃ word c behind, IsFreeOfBlanks word ∧ isBlank c = true ∧ text = word ++ c :: behind := by
  induction text with
  | nil => exact Or.inl (List.forall_mem_nil _)
  | cons c text ih =>
    cases hc : isBlank c with
    | true => exact Or.inr ⟨[], c, text, List.forall_mem_nil _, hc, rfl⟩
    | false =>
      refine ih.imp (fun hfree => List.forall_mem_cons.mpr ⟨hc, hfree⟩) ?_
      rintro ⟨word, b, behind, hword, hb, rfl⟩
      exact ⟨c :: word, b, behind, List.forall_mem_cons.mpr ⟨hc, hword⟩, hb, rfl⟩

lemma trimStart_append {front : List Char} (h : AreBlank front) (text : List Char) :
    trimStart (front ++ text) = trimStart text :=
  List.dropWhile_append_of_pos h

lemma trimStart_of_areBlank {text : List Char} (h : AreBlank text) : trimStart text = [] :=
  List.dropWhile_eq_nil_iff.mpr h

lemma trimStart_word_append {word : List Char} (h : IsFreeOfBlanks word) (hne : word ≠ [])
    (back : List Char) : trimStart (word ++ back) = word ++ back := by
  obtain ⟨c, rest, rfl⟩ := List.exists_cons_of_ne_nil hne
  exact List.dropWhile_cons_of_neg (by simp [h c List.mem_cons_self])

lemma trimStart_of_isFreeOfBlanks {word : List Char} (h : IsFreeOfBlanks word) :
    trimStart word = word := by
  cases word with
  | nil => rfl
  | cons c word =>
    rw [← List.append_nil (c :: word)]
    exact trimStart_word_append h (List.cons_ne_nil _ _) []

lemma trimEnd_eq_nil_iff (text : List Char) : trimEnd text = [] ↔ AreBlank text := by
  rw [trimEnd, trimStart, List.reverse_eq_nil_iff, List.dropWhile_eq_nil_iff]
  simp [AreBlank]

lemma exists_eq_trimEnd_append (text : List Char) :
    ∃ back, AreBlank back ∧ text = trimEnd text ++ back := by
  refine ⟨(text.reverse.takeWhile isBlank).reverse, fun c hc => ?_, ?_⟩
  · exact List.mem_takeWhile_imp (List.mem_reverse.mp hc)
  · rw [trimEnd, trimStart, ← List.reverse_append, List.takeWhile_append_dropWhile,
      List.reverse_reverse]

/-- **Trimming stays at the end.** -/
lemma trimEnd_append {text : List Char} (h : ¬ AreBlank text) (front : List Char) :
    trimEnd (front ++ text) = front ++ trimEnd text := by
  have hkept : text.reverse.dropWhile isBlank ≠ [] := fun hnil =>
    h ((trimEnd_eq_nil_iff text).mp (List.reverse_eq_nil_iff.mpr hnil))
  rw [trimEnd, trimEnd, trimStart, trimStart, List.reverse_append, List.dropWhile_append,
    if_neg (by simpa using hkept), List.reverse_append, List.reverse_reverse]

lemma trimEnd_append_of_areBlank {back : List Char} (h : AreBlank back) (text : List Char) :
    trimEnd (text ++ back) = trimEnd text := by
  rw [trimEnd, trimEnd, List.reverse_append,
    trimStart_append fun c hc => h c (List.mem_reverse.mp hc)]

lemma trimEnd_of_isFreeOfBlanks {word : List Char} (h : IsFreeOfBlanks word) :
    trimEnd word = word := by
  obtain ⟨back, hback, hword⟩ := exists_eq_trimEnd_append word
  cases back with
  | nil => rw [List.append_nil] at hword; exact hword.symm
  | cons c back =>
    have hmem : c ∈ word := by rw [hword]; simp
    exact absurd ((hback c List.mem_cons_self).symm.trans (h c hmem)) (by decide)

/-! ### Both ends -/

lemma trim_append_of_areBlank {back : List Char} (h : AreBlank back) (text : List Char) :
    trim (text ++ back) = trim text := by
  unfold trim
  by_cases htext : AreBlank text
  · rw [trimStart_append htext, trimStart_of_areBlank h, trimStart_of_areBlank htext]
  · have hkept : text.dropWhile isBlank ≠ [] := fun hnil =>
      htext (List.dropWhile_eq_nil_iff.mp hnil)
    have hstart : trimStart (text ++ back) = trimStart text ++ back := by
      rw [trimStart, trimStart, List.dropWhile_append, if_neg (by simpa using hkept)]
    rw [hstart, trimEnd_append_of_areBlank h]

/-- **A word with blanks around it.** -/
lemma trim_padded {front word back : List Char} (hfront : AreBlank front)
    (hword : IsFreeOfBlanks word) (hback : AreBlank back) :
    trim (front ++ word ++ back) = word := by
  rw [trim_append_of_areBlank hback, trim, trimStart_append hfront,
    trimStart_of_isFreeOfBlanks hword, trimEnd_of_isFreeOfBlanks hword]

end SheetLint.Text
