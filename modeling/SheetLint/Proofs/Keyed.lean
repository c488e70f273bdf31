import Mathlib.Data.List.Induction
import Mathlib.Data.List.Sort
import Mathlib.Tactic.Lemma
import SheetLint.Keyed

/-!
# Sorted lists as maps

In a sorted list no key occurs twice, so that what `find?` gives is all there is to it: a sorted
list is known by its values at all keys (`ext_of_sorted`).  Putting a value at a key keeps a list
sorted, and a list made from pairs is sorted whatever the pairs are (`sorted_ofPairs`); of several
pairs with one key the last one counts (`find?_ofPairs`).

This is what lets caches, directories and objects be compared by what is looked up in them.
-/

namespace SheetLint.Keyed

variable {α : Type} {xs ys : Keyed α}

lemma sorted_cons {p : String × α} : Sorted (p :: xs) ↔ (∀ q ∈ xs, p.1 < q.1) ∧ xs.Sorted := by
  simp [Sorted]

lemma find?_eq_some_iff (h : xs.Sorted) (key : String) (value : α) :
    xs.find? key = some value ↔ (key, value) ∈ xs := by
  induction xs with
  | nil => simp [Keyed.find?]
  | cons p xs ih =>
    obtain ⟨k, v⟩ := p
    obtain ⟨hbelow, hsorted⟩ := sorted_cons.mp h
    rw [Keyed.find?, List.mem_cons, Prod.mk.injEq]
    by_cases hk : k = key
    · subst hk
      rw [if_pos rfl]
      constructor
      · intro hv
        exact Or.inl ⟨rfl, (Option.some.inj hv).symm⟩
      · rintro (⟨-, rfl⟩ | hmem)
        · rfl
        · exact absurd (hbelow _ hmem) (String.lt_irrefl k)
    · rw [if_neg hk, ih hsorted]
      exact ⟨Or.inr, fun hmem => hmem.resolve_left fun heq => hk heq.1.symm⟩

/-- **A sorted list is known by its values.** -/
lemma ext_of_sorted (hxs : xs.Sorted) (hys : ys.Sorted)
    (h : ∀ key, xs.find? key = ys.find? key) : xs = ys := by
  let before : String × α → String × α → Prop := fun p q => p.1 < q.1
  have hasymm : Std.Asymm before := ⟨fun _ _ => String.lt_asymm⟩
  refine List.Pairwise.eq_of_mem_iff (r := before) (List.pairwise_map.mp hxs)
    (List.pairwise_map.mp hys) ?_
  rintro ⟨key, value⟩
  rw [← find?_eq_some_iff hxs, ← find?_eq_some_iff hys, h]

lemma mem_of_mem_insert {p : String × α} {key : String} {value : α}
    (h : p ∈ insert key value xs) : p = (key, value) ∨ p ∈ xs := by
  induction xs with
  | nil => exact Or.inl (List.mem_singleton.mp h)
  | cons q xs ih =>
    obtain ⟨k, v⟩ := q
    rw [insert] at h
    split_ifs at h
    · exact (List.mem_cons.mp h).imp_right (List.mem_cons_of_mem _)
    · exact List.mem_cons.mp h
    · rcases List.mem_cons.mp h with rfl | h
      · exact Or.inr List.mem_cons_self
      · exact (ih h).imp_right (List.mem_cons_of_mem _)

lemma Sorted.insert (h : xs.Sorted) (key : String) (value : α) :
    (Keyed.insert key value xs).Sorted := by
  induction xs with
  | nil => exact sorted_cons.mpr ⟨fun _ hq => (nomatch hq), h⟩
  | cons p xs ih =>
    obtain ⟨k, v⟩ := p
    obtain ⟨hbelow, hsorted⟩ := sorted_cons.mp h
    rw [Keyed.insert]
    split_ifs with hk hlt
    · subst hk
      exact sorted_cons.mpr ⟨hbelow, hsorted⟩
    · refine sorted_cons.mpr ⟨?_, h⟩
      intro q hq
      rcases List.mem_cons.mp hq with rfl | hq
      · exact hlt
      · exact String.lt_trans hlt (hbelow q hq)
    · refine sorted_cons.mpr ⟨?_, ih hsorted⟩
      intro q hq
      rcases mem_of_mem_insert hq with rfl | hq
      · exact Std.lt_of_le_of_ne (String.not_lt.mp hlt) hk
      · exact hbelow q hq

lemma insert_eq_append {key : String} {value : α} {xs : Keyed α} (h : ∀ p ∈ xs, p.1 < key) :
    Keyed.insert key value xs = xs ++ [(key, value)] := by
  induction xs with
  | nil => rfl
  | cons p xs ih =>
    obtain ⟨hp, hxs⟩ := List.forall_mem_cons.mp h
    rw [Keyed.insert, if_neg (String.ne_of_lt hp), if_neg (String.lt_asymm hp), ih hxs,
      List.cons_append]

lemma ofPairs_concat (pairs : List (String × α)) (p : String × α) :
    ofPairs (pairs ++ [p]) = Keyed.insert p.1 p.2 (ofPairs pairs) :=
  List.foldl_append

/-- Of several pairs with one key the last one counts. -/
lemma find?_ofPairs (pairs : List (String × α)) (key : String) :
    (ofPairs pairs).find? key = pairs.reverse.lookup key := by
  induction pairs using List.reverseRecOn with
  | nil => rfl
  | append_singleton pairs p ih =>
    rw [ofPairs_concat, List.reverse_concat, List.lookup_cons]
    by_cases hkey : key = p.1
    · rw [hkey, find?_insert_self, beq_self_eq_true]
    · rw [find?_insert_of_ne hkey, ih, beq_false_of_ne hkey]

/-- A sorted list is what its pairs make of it. -/
lemma ofPairs_eq_self {xs : Keyed α} (h : xs.Sorted) : ofPairs xs = xs := by
  induction xs using List.reverseRecOn with
  | nil => rfl
  | append_singleton xs p ih =>
    rw [Sorted, List.map_append, List.pairwise_append] at h
    obtain ⟨hsorted, -, hbelow⟩ := h
    have hlast : ∀ q ∈ xs, q.1 < p.1 := fun q hq =>
      hbelow q.1 (List.mem_map_of_mem hq) p.1 List.mem_cons_self
    rw [ofPairs_concat, ih hsorted, insert_eq_append hlast]

lemma sorted_ofPairs (pairs : List (String × α)) : (ofPairs pairs).Sorted := by
  induction pairs using List.reverseRecOn with
  | nil => exact List.Pairwise.nil
  | append_singleton pairs p ih =>
    rw [ofPairs_concat]
    exact ih.insert p.1 p.2

lemma mem_of_mem_ofPairs {p : String × α} {pairs : List (String × α)} (h : p ∈ ofPairs pairs) :
    p ∈ pairs := by
  induction pairs using List.reverseRecOn with
  | nil => exact nomatch h
  | append_singleton pairs q ih =>
    rw [ofPairs_concat] at h
    rcases mem_of_mem_insert h with rfl | h
    · exact List.mem_concat_self
    · exact List.mem_append_left _ (ih h)

end SheetLint.Keyed
