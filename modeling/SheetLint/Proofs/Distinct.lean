import Mathlib.Data.List.Basic
import Mathlib.Tactic.Lemma

/-!
# Lists less their repetitions

`List.eraseDups` keeps the first occurrence of each element.  An element stands in front of the list
that is left when all its repetitions are gone, which is the induction behind the lemmas here:
`eraseDups_induction`.

It commutes with maps that tell the elements apart, and with filters.
-/

namespace SheetLint

/-- Induction along the elements that are kept. -/
lemma eraseDups_induction {α : Type} [BEq α] {motive : List α → Prop} (nil : motive [])
    (cons : ∀ x xs, motive (xs.filter fun y => !y == x) → motive (x :: xs)) (xs : List α) :
    motive xs := by
  match xs with
  | [] => exact nil
  | x :: xs => exact cons x xs (eraseDups_induction nil cons _)
termination_by xs.length
decreasing_by exact Nat.lt_succ_of_le (List.length_filter_le _ _)

variable {α β : Type} [BEq α] [LawfulBEq α] [BEq β] [LawfulBEq β]

lemma nodup_eraseDups (xs : List α) : xs.eraseDups.Nodup := by
  induction xs using eraseDups_induction with
  | nil => exact List.nodup_nil
  | cons x xs ih =>
    rw [List.eraseDups_cons, List.nodup_cons]
    refine ⟨fun hmem => ?_, ih⟩
    simpa using (List.mem_filter.mp (List.mem_eraseDups.mp hmem)).2

lemma eraseDups_map {f : α → β} {xs : List α} (hf : ∀ x ∈ xs, ∀ y ∈ xs, f x = f y → x = y) :
    (xs.map f).eraseDups = xs.eraseDups.map f := by
  induction xs using eraseDups_induction with
  | nil => rfl
  | cons x xs ih =>
    have hlater : (xs.map f).filter (fun y => !y == f x) =
        (xs.filter fun y => !y == x).map f := by
      rw [List.filter_map]
      congr 1
      refine List.filter_congr fun y hy => ?_
      have hiff : (f y == f x) = (y == x) := by
        rw [Bool.eq_iff_iff, beq_iff_eq, beq_iff_eq]
        exact ⟨hf y (by simp [hy]) x (by simp), congrArg f⟩
      rw [Function.comp, hiff]
    have hrest : ∀ a ∈ xs.filter (fun y => !y == x), ∀ b ∈ xs.filter (fun y => !y == x),
        f a = f b → a = b := fun a ha b hb =>
      hf a (List.mem_cons_of_mem _ (List.mem_of_mem_filter ha)) b
        (List.mem_cons_of_mem _ (List.mem_of_mem_filter hb))
    rw [List.map_cons, List.eraseDups_cons, List.eraseDups_cons, hlater, ih hrest, List.map_cons]

lemma eraseDups_filter (keeps : α → Bool) (xs : List α) :
    (xs.filter keeps).eraseDups = xs.eraseDups.filter keeps := by
  induction xs using eraseDups_induction with
  | nil => rfl
  | cons x xs ih =>
    have hcomm : (xs.filter keeps).filter (fun y => !y == x) =
        (xs.filter fun y => !y == x).filter keeps := by
      simp only [List.filter_filter, Bool.and_comm]
    by_cases hx : keeps x = true
    · rw [List.filter_cons_of_pos hx, List.eraseDups_cons, List.eraseDups_cons,
        List.filter_cons_of_pos hx, hcomm, ih]
    · have hgone : (xs.filter fun y => !y == x).filter keeps = xs.filter keeps := by
        rw [List.filter_filter]
        refine List.filter_congr fun y _ => ?_
        by_cases hy : y = x
        · simp [hy, hx]
        · simp [hy]
      rw [List.filter_cons_of_neg hx, List.eraseDups_cons, List.filter_cons_of_neg hx, ← ih, hgone]

end SheetLint
