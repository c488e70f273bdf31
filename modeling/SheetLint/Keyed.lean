/-!
# Lists sorted by key

A finite map from texts as a list of pairs whose keys increase strictly in the order of code
points.  The fields of a JSON object, the entries of a directory and the entries of a cache are
such lists, and all of them are shown in this order.

`find?` after `insert` and after `erase` is what a map makes of it, whatever the list.
-/

namespace SheetLint

/-- A list of pairs, meant to be sorted by key. -/
abbrev Keyed (α : Type) := List (String × α)

namespace Keyed

variable {α : Type}

/-- The value at a key. -/
def find? : Keyed α → String → Option α
  | [], _ => none
  | (k, v) :: rest, key => if k = key then some v else find? rest key

/-- The list with `value` at `key`, in place of what was there. -/
def insert (key : String) (value : α) : Keyed α → Keyed α
  | [] => [(key, value)]
  | (k, v) :: rest =>
    if k = key then (key, value) :: rest
    else if key < k then (key, value) :: (k, v) :: rest
    else (k, v) :: insert key value rest

/-- The list without a key. -/
def erase (key : String) : Keyed α → Keyed α
  | [] => []
  | (k, v) :: rest => if k = key then erase key rest else (k, v) :: erase key rest

/-- The sorted list of the given pairs; of several with one key the last one counts. -/
def ofPairs (pairs : List (String × α)) : Keyed α :=
  pairs.foldl (fun xs p => insert p.1 p.2 xs) []

/-- The keys increase strictly. -/
def Sorted (xs : Keyed α) : Prop :=
  (xs.map Prod.fst).Pairwise (· < ·)

@[simp] theorem find?_insert_self (key : String) (value : α) (xs : Keyed α) :
    find? (insert key value xs) key = some value := by
  induction xs with
  | nil => simp [insert, find?]
  | cons p rest ih =>
    obtain ⟨k, v⟩ := p
    by_cases h : k = key
    · simp [insert, find?, h]
    · by_cases hlt : key < k <;> simp [insert, find?, h, hlt, ih]

theorem find?_insert_of_ne {key other : String} (h : other ≠ key) (value : α) (xs : Keyed α) :
    find? (insert key value xs) other = find? xs other := by
  induction xs with
  | nil => simp [insert, find?, Ne.symm h]
  | cons p rest ih =>
    obtain ⟨k, v⟩ := p
    by_cases hk : k = key
    · subst hk; simp [insert, find?, Ne.symm h]
    · by_cases hlt : key < k
      · simp [insert, find?, hk, hlt, Ne.symm h]
      · simp [insert, find?, hk, hlt, ih]

@[simp] theorem find?_erase_self (key : String) (xs : Keyed α) :
    find? (erase key xs) key = none := by
  induction xs with
  | nil => rfl
  | cons p rest ih => by_cases h : p.1 = key <;> simp [erase, find?, h, ih]

theorem find?_erase_of_ne {key other : String} (h : other ≠ key) (xs : Keyed α) :
    find? (erase key xs) other = find? xs other := by
  induction xs with
  | nil => rfl
  | cons p rest ih =>
    by_cases hk : p.1 = key
    · simp [erase, find?, hk, Ne.symm h, ih]
    · rw [erase, if_neg hk]
      simp [find?, ih]

end Keyed

end SheetLint
