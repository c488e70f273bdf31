import Mathlib.Data.List.Forall2
import Mathlib.Tactic.Lemma

/-!
# Computations that can fail

A computation that succeeds has succeeded in each of its steps.  So what is known of a result can be
traced back through a bind, a map and the loops over lists.

Two computations are compared by `Alike`: both fail, with errors that need not be the same, or both
succeed with results that are related.  This is kept by binding and by the loops, so it is enough to
compare the steps.
-/

namespace SheetLint

variable {ε α β : Type}

lemma exists_of_bind_eq_ok {first : Except ε α} {next : α → Except ε β} {b : β}
    (h : first >>= next = .ok b) : ∃ a, first = .ok a ∧ next a = .ok b := by
  cases first with
  | error error => exact nomatch h
  | ok a => exact ⟨a, rfl, h⟩

lemma exists_of_map_eq_ok {f : α → β} {x : Except ε α} {b : β} (h : x.map f = .ok b) :
    ∃ a, x = .ok a ∧ f a = b := by
  cases x with
  | error error => exact nomatch h
  | ok a => exact ⟨a, rfl, Except.ok.inj h⟩

lemma eq_ok_of_toOption {x : Except ε α} {a : α} (h : x.toOption = some a) : x = .ok a := by
  cases x with
  | error error => exact nomatch h
  | ok b => exact congrArg Except.ok (Option.some.inj h)

lemma cases_of_toOption_eq {x x' : Except ε α} (h : x.toOption = x'.toOption) :
    (∃ error error', x = .error error ∧ x' = .error error') ∨ ∃ a, x = .ok a ∧ x' = .ok a := by
  cases x with
  | error error => cases x' with
    | error error' => exact Or.inl ⟨error, error', rfl, rfl⟩
    | ok a => exact nomatch h
  | ok a => exact Or.inr ⟨a, rfl, eq_ok_of_toOption h.symm⟩

lemma forall₂_of_mapM {f : α → Except ε β} {xs : List α} {ys : List β}
    (h : xs.mapM f = .ok ys) : List.Forall₂ (fun x y => f x = .ok y) xs ys := by
  induction xs generalizing ys with
  | nil =>
    cases h
    exact .nil
  | cons x xs ih =>
    rw [List.mapM_cons] at h
    obtain ⟨y, hy, h⟩ := exists_of_bind_eq_ok h
    obtain ⟨more, hmore, h⟩ := exists_of_bind_eq_ok h
    cases h
    exact .cons hy (ih hmore)

lemma mapM_eq_ok_iff {f : α → Except ε β} {xs : List α} {ys : List β} :
    xs.mapM f = .ok ys ↔ List.Forall₂ (fun x y => f x = .ok y) xs ys := by
  refine ⟨forall₂_of_mapM, fun h => ?_⟩
  induction h with
  | nil => rfl
  | cons hx _ ih =>
    rw [List.mapM_cons, hx, ih]
    rfl

lemma exists_of_mem_mapM {f : α → Except ε β} {xs : List α} {ys : List β}
    (h : xs.mapM f = .ok ys) {y : β} (hy : y ∈ ys) : ∃ x ∈ xs, f x = .ok y := by
  induction forall₂_of_mapM h with
  | nil => exact nomatch hy
  | cons hx hrest ih =>
    rcases List.mem_cons.mp hy with rfl | hy
    · exact ⟨_, List.mem_cons_self, hx⟩
    · obtain ⟨x, hmem, hfx⟩ := ih (mapM_eq_ok_iff.mpr hrest) hy
      exact ⟨x, List.mem_cons_of_mem _ hmem, hfx⟩

lemma exists_of_mem_filterMapM {f : α → Except ε (Option β)} {xs : List α} {ys : List β}
    (h : xs.filterMapM f = .ok ys) {y : β} (hy : y ∈ ys) : ∃ x ∈ xs, f x = .ok (some y) := by
  induction xs generalizing ys with
  | nil =>
    cases h
    exact nomatch hy
  | cons x xs ih =>
    rw [List.filterMapM_cons] at h
    obtain ⟨found, hx, h⟩ := exists_of_bind_eq_ok h
    cases found with
    | none =>
      obtain ⟨z, hz, hfz⟩ := ih h hy
      exact ⟨z, List.mem_cons_of_mem _ hz, hfz⟩
    | some b =>
      obtain ⟨more, hmore, h⟩ := exists_of_bind_eq_ok h
      cases h
      rcases List.mem_cons.mp hy with rfl | hy
      · exact ⟨x, List.mem_cons_self, hx⟩
      · obtain ⟨z, hz, hfz⟩ := ih hmore hy
        exact ⟨z, List.mem_cons_of_mem _ hz, hfz⟩

/-- A last element is looked at after those in front of it. -/
lemma exists_of_filterMapM_concat {f : α → Except ε (Option β)} {xs : List α} {x : α}
    {ys : List β} (h : (xs ++ [x]).filterMapM f = .ok ys) :
    ∃ front last, xs.filterMapM f = .ok front ∧ f x = .ok last ∧ ys = front ++ last.toList := by
  induction xs generalizing ys with
  | nil =>
    rw [List.nil_append, List.filterMapM_cons] at h
    obtain ⟨last, hlast, h⟩ := exists_of_bind_eq_ok h
    refine ⟨[], last, rfl, hlast, ?_⟩
    cases last <;> exact (Except.ok.inj h).symm
  | cons first xs ih =>
    rw [List.cons_append, List.filterMapM_cons] at h
    obtain ⟨found, hfirst, h⟩ := exists_of_bind_eq_ok h
    rw [List.filterMapM_cons, hfirst]
    cases found with
    | none => exact ih h
    | some y =>
      obtain ⟨rest, hrest, h⟩ := exists_of_bind_eq_ok h
      cases h
      obtain ⟨front, last, hfront, hlast, rfl⟩ := ih hrest
      refine ⟨y :: front, last, ?_, hlast, rfl⟩
      simp only [bind, Except.bind, hfront]
      rfl

lemma exists_mapM_eq_ok_iff {f : α → Except ε β} {xs : List α} :
    (∃ ys, xs.mapM f = .ok ys) ↔ ∀ x ∈ xs, ∃ y, f x = .ok y := by
  induction xs with
  | nil => exact iff_of_true ⟨[], rfl⟩ fun _ hx => nomatch hx
  | cons x xs ih =>
    rw [List.forall_mem_cons, ← ih]
    constructor
    · rintro ⟨ys, hys⟩
      rw [List.mapM_cons] at hys
      obtain ⟨y, hy, hys⟩ := exists_of_bind_eq_ok hys
      obtain ⟨more, hmore, -⟩ := exists_of_bind_eq_ok hys
      exact ⟨⟨y, hy⟩, more, hmore⟩
    · rintro ⟨⟨y, hy⟩, more, hmore⟩
      exact ⟨y :: more, by rw [List.mapM_cons, hy, hmore]; rfl⟩

/-! ### Two computations -/

/-- Two computations both fail, or both succeed with related results. -/
inductive Alike {ε' α' : Type} (R : α → α' → Prop) : Except ε α → Except ε' α' → Prop where
  | ok {a : α} {a' : α'} (h : R a a') : Alike R (.ok a) (.ok a')
  | error (error : ε) (error' : ε') : Alike R (.error error) (.error error')

namespace Alike

variable {ε' α' β' : Type} {R : α → α' → Prop} {S : β → β' → Prop}

lemma bind {x : Except ε α} {x' : Except ε' α'} (h : Alike R x x') {next : α → Except ε β}
    {next' : α' → Except ε' β'} (hnext : ∀ a a', R a a' → Alike S (next a) (next' a')) :
    Alike S (x >>= next) (x' >>= next') := by
  cases h with
  | ok h => exact hnext _ _ h
  | error error error' => exact .error error error'

lemma exists_of_ok {a : α} {x' : Except ε' α'} (h : Alike R (.ok a : Except ε α) x') :
    ∃ a', x' = .ok a' ∧ R a a' := by
  cases h with
  | ok h => exact ⟨_, rfl, h⟩

lemma of_common {ε'' α'' : Type} {R' : α → α'' → Prop} {T : α' → α'' → Prop} {x : Except ε α}
    {x' : Except ε' α'} {x'' : Except ε'' α''} (h : Alike R x x') (h' : Alike R' x x'')
    (hboth : ∀ a a' a'', R a a' → R' a a'' → T a' a'') : Alike T x' x'' := by
  cases h with
  | ok h => cases h' with
    | ok h' => exact .ok (hboth _ _ _ h h')
  | error _ error' => cases h' with
    | error _ error'' => exact .error error' error''

lemma mapM {f : α → Except ε β} {f' : α' → Except ε' β'} {xs : List α} {xs' : List α'}
    (h : List.Forall₂ (fun x x' => Alike S (f x) (f' x')) xs xs') :
    Alike (List.Forall₂ S) (xs.mapM f) (xs'.mapM f') := by
  induction h with
  | nil => exact .ok .nil
  | cons hfirst _ ih =>
    rw [List.mapM_cons, List.mapM_cons]
    exact hfirst.bind fun y y' hy => ih.bind fun ys ys' hys => .ok (.cons hy hys)

lemma foldlM {f : α → β → Except ε α} {f' : α' → β' → Except ε' α'} {xs : List β} {xs' : List β'}
    (h : List.Forall₂ (fun x x' => ∀ a a', R a a' → Alike R (f a x) (f' a' x')) xs xs') {a : α}
    {a' : α'} (ha : R a a') : Alike R (xs.foldlM f a) (xs'.foldlM f' a') := by
  induction h generalizing a a' with
  | nil => exact .ok ha
  | cons hfirst _ ih =>
    rw [List.foldlM_cons, List.foldlM_cons]
    exact (hfirst a a' ha).bind fun b b' hb => ih hb

end Alike

end SheetLint
