import SheetLint.Proofs.Decimal.Reading
import SheetLint.Proofs.Json.Strings

/-!
# Written values are told apart

The compact form of a value cannot go on into the text behind it, but that a number could be
followed by more of a number.  So of two texts that are the same and begin with a value each, the
values are the same and what follows them, provided that no number goes on (`compact_append_inj`).
With nothing behind them, this says that printing is injective: `print_injective`.

The kind of a value shows in the first character of its text, `front`.  Integers and doubles share
one, a digit or a sign; the point or the exponent tells them apart (`integer_ne_float`).

Inside of arrays and objects a value is followed by a comma or by what closes them, and no number
goes on into these (`Stops`).
-/

namespace SheetLint.Json

open Decimal (isNumeric)

/-! ### Numbers -/

lemma integer_injective {m n : ℤ} (h : Decimal.integer m = Decimal.integer n) : m = n := by
  have hvalue : ∀ k : ℕ, Decimal.valueFrom 0 (Decimal.natural k) = k := Decimal.valueFrom_natural
  have hsign : ∀ k l : ℕ, Decimal.natural k ≠ '-' :: Decimal.natural l := by
    intro k l hkl
    have hdigit := Decimal.allDigits_natural k '-' (by rw [hkl]; simp)
    exact absurd hdigit (by decide)
  cases m with
  | ofNat m =>
    cases n with
    | ofNat n =>
      have := congrArg (Decimal.valueFrom 0) h
      simp only [Decimal.integer, hvalue] at this
      rw [this]
    | negSucc n => exact absurd h (hsign m (n + 1))
  | negSucc m =>
    cases n with
    | ofNat n => exact absurd h.symm (hsign n (m + 1))
    | negSucc n =>
      have := congrArg (Decimal.valueFrom 0) (List.cons.inj h).2
      simp only [hvalue] at this
      rw [Nat.succ_inj.1 this]

lemma integer_ne_float (n : ℤ) (x : Float) : Decimal.integer n ≠ Decimal.jsonLayout.float x := by
  intro h
  have hmarked := (Decimal.isDecimal_render (l := Decimal.jsonLayout) rfl rfl
    (Decimal.Dyadic.ofBits x.toBits).printed).marked
  have hmem : '.' ∈ Decimal.integer n ∨ 'e' ∈ Decimal.integer n := by
    rw [h, Decimal.float_eq]
    rcases hmarked with hm | hm
    · exact Or.inl (List.mem_append_right _ hm)
    · exact Or.inr (List.mem_append_right _ hm)
  have hnatural : ∀ k : ℕ, '.' ∉ Decimal.natural k ∧ 'e' ∉ Decimal.natural k := by
    intro k
    constructor
    · intro hc
      exact absurd (Decimal.allDigits_natural k _ hc) (by decide)
    · intro hc
      exact absurd (Decimal.allDigits_natural k _ hc) (by decide)
  cases n with
  | ofNat n =>
    rcases hmem with hm | hm
    · exact (hnatural n).1 hm
    · exact (hnatural n).2 hm
  | negSucc n =>
    rcases hmem with hm | hm
    · exact (hnatural (n + 1)).1 (by simpa [Decimal.integer] using hm)
    · exact (hnatural (n + 1)).2 (by simpa [Decimal.integer] using hm)

/-- No number can go on into the text. -/
def Stops (r : List Char) : Prop := ∀ c ∈ r.head?, isNumeric c = false

lemma takeWhile_numeric {a r : List Char} (ha : ∀ c ∈ a, isNumeric c = true) (hr : Stops r) :
    (a ++ r).takeWhile isNumeric = a := by
  rw [List.takeWhile_append_of_pos ha]
  cases r with
  | nil => simp
  | cons c r =>
    have hc : isNumeric c = false := hr c rfl
    simp [hc]

lemma append_inj_of_numeric {a b r s : List Char} (ha : ∀ c ∈ a, isNumeric c = true)
    (hb : ∀ c ∈ b, isNumeric c = true) (hr : Stops r) (hs : Stops s) (h : a ++ r = b ++ s) :
    a = b ∧ r = s := by
  have hab : a = b := by rw [← takeWhile_numeric ha hr, h, takeWhile_numeric hb hs]
  subst hab
  exact ⟨rfl, List.append_cancel_left h⟩

lemma isNumeric_float (x : Float) : ∀ c ∈ Decimal.jsonLayout.float x, isNumeric c = true := by
  rw [Decimal.float_eq, List.forall_mem_append]
  refine ⟨?_, (Decimal.isDecimal_render rfl rfl _).numeric⟩
  intro c hc
  split at hc
  · rw [List.mem_singleton.1 hc]
    rfl
  · simp at hc

/-! ### Strings -/

lemma quote_append_inj {a b r s : List Char} (h : quote a ++ r = quote b ++ s) :
    a = b ∧ r = s := by
  obtain ⟨p, hp⟩ := readFrom_quote a [] ⟨1, 0⟩ r
  obtain ⟨q, hq⟩ := readFrom_quote b [] ⟨1, 0⟩ s
  have htext : a.flatMap escape ++ '\x22' :: r = b.flatMap escape ++ '\x22' :: s := by
    simpa [quote] using h
  rw [htext, hq] at hp
  simp at hp
  exact ⟨hp.1.symm, hp.2.2.symm⟩

/-! ### Values -/

/-- The kind of a value, as the first character of its text shows it. -/
def front : Json → Char
  | .null => 'n'
  | .bool true => 't'
  | .bool false => 'f'
  | .int _ => '0'
  | .float _ => '0'
  | .str _ => '\x22'
  | .arr _ => '['
  | .obj _ => '\x7b'

/-- What a character that a value begins with says about its kind. -/
def kindOf (c : Char) : Char := if isNumeric c then '0' else c

lemma integer_ne_nil (n : ℤ) : Decimal.integer n ≠ [] := by
  cases n with
  | ofNat n =>
    obtain ⟨c, r, hn, -⟩ := Decimal.startsWithDigit_natural n
    simp [Decimal.integer, hn]
  | negSucc n => simp [Decimal.integer]

lemma float_ne_nil (x : Float) : Decimal.jsonLayout.float x ≠ [] := by
  obtain ⟨c, r, hx, -⟩ := (Decimal.isDecimal_render (l := Decimal.jsonLayout) rfl rfl
    (Decimal.Dyadic.ofBits x.toBits).printed).digit
  rw [Decimal.float_eq, hx]
  simp

lemma kindOf_head {a : List Char} (ha : ∀ c ∈ a, isNumeric c = true) (hne : a ≠ []) :
    ∃ c r, a = c :: r ∧ kindOf c = '0' := by
  obtain ⟨c, r, rfl⟩ := List.exists_cons_of_ne_nil hne
  exact ⟨c, r, rfl, by simp [kindOf, ha c]⟩

/-- The first character of a written value shows its kind. -/
lemma compact_front (j : Json) : ∃ c r, compact j = c :: r ∧ kindOf c = front j := by
  cases j with
  | null => exact ⟨_, _, rfl, rfl⟩
  | bool b => cases b <;> exact ⟨_, _, rfl, rfl⟩
  | int n =>
    have h := kindOf_head (Decimal.isNumeric_integer n) (integer_ne_nil n)
    simpa [compact, front] using h
  | float x =>
    have h := kindOf_head (isNumeric_float x) (float_ne_nil x)
    simpa [compact, front] using h
  | str s => exact ⟨_, _, by rw [compact, quote], rfl⟩
  | arr xs =>
    cases xs with
    | nil => exact ⟨_, _, by rw [compact], rfl⟩
    | cons x xs => exact ⟨_, _, by rw [compact], rfl⟩
  | obj fields =>
    cases fields with
    | nil => exact ⟨_, _, by rw [compact], rfl⟩
    | cons p fields => exact ⟨_, _, by rw [compact], rfl⟩

lemma front_eq {a b : Json} {r s : List Char} (h : compact a ++ r = compact b ++ s) :
    front a = front b := by
  obtain ⟨c, t, hc, hkind⟩ := compact_front a
  obtain ⟨d, u, hd, hkind'⟩ := compact_front b
  rw [hc, hd, List.cons_append, List.cons_append, List.cons.injEq] at h
  rw [← hkind, ← hkind', h.1]

lemma compact_append_ne {j : Json} {c : Char} {r s : List Char} (hc : c = ']' ∨ c = '\x7d') :
    compact j ++ r ≠ c :: s := by
  obtain ⟨d, t, hd, hkind⟩ := compact_front j
  rw [hd, List.cons_append]
  intro h
  obtain ⟨rfl, -⟩ := List.cons.inj h
  rcases hc with rfl | rfl <;> cases j <;> simp [front, kindOf, isNumeric] at hkind
  all_goals rename_i b; cases b <;> simp at hkind

lemma eq_number_of_front {j : Json} (h : front j = '0') :
    (∃ n, j = .int n) ∨ ∃ x, j = .float x := by
  rcases j with _ | (_ | _) <;> simp_all [front]

lemma stops_compactItems (xs : List Json) (r : List Char) : Stops (compactItems xs ++ r) := by
  cases xs <;> simp [compactItems, Stops, isNumeric]

lemma stops_compactFields (fields : List (String × Json)) (r : List Char) :
    Stops (compactFields fields ++ r) := by
  rcases fields with - | ⟨⟨k, v⟩, fields⟩ <;> simp [compactFields, Stops, isNumeric]

mutual

/-- **A written value ends where it ends**: a text begins with at most one value. -/
theorem compact_append_inj : ∀ (a b : Json) {r s : List Char}, Stops r → Stops s →
    compact a ++ r = compact b ++ s → a = b ∧ r = s := by
  intro a b r s hr hs h
  -- The first character leaves one constructor for `b`, or two for numbers.
  have hfront := front_eq h
  cases a with
  | null =>
    obtain rfl : b = .null := by rcases b with _ | (_ | _) <;> simp_all [front]
    exact ⟨rfl, List.append_cancel_left h⟩
  | bool x =>
    obtain rfl : b = .bool x := by rcases x <;> rcases b with _ | (_ | _) <;> simp_all [front]
    exact ⟨rfl, List.append_cancel_left h⟩
  | int n =>
    rcases eq_number_of_front hfront.symm with ⟨m, rfl⟩ | ⟨y, rfl⟩
    · simp only [compact] at h
      obtain ⟨hnm, hrs⟩ := append_inj_of_numeric (Decimal.isNumeric_integer n)
        (Decimal.isNumeric_integer m) hr hs h
      exact ⟨by rw [integer_injective hnm], hrs⟩
    · simp only [compact] at h
      obtain ⟨hny, -⟩ := append_inj_of_numeric (Decimal.isNumeric_integer n)
        (isNumeric_float y) hr hs h
      exact absurd hny (integer_ne_float n y)
  | float x =>
    rcases eq_number_of_front hfront.symm with ⟨m, rfl⟩ | ⟨y, rfl⟩
    · simp only [compact] at h
      obtain ⟨hxm, -⟩ := append_inj_of_numeric (isNumeric_float x)
        (Decimal.isNumeric_integer m) hr hs h
      exact absurd hxm.symm (integer_ne_float m x)
    · simp only [compact] at h
      obtain ⟨hxy, hrs⟩ := append_inj_of_numeric (isNumeric_float x) (isNumeric_float y) hr hs h
      exact ⟨by rw [Decimal.float_injective hxy], hrs⟩
  | str x =>
    obtain ⟨y, rfl⟩ : ∃ y, b = .str y := by rcases b with _ | (_ | _) <;> simp_all [front]
    simp only [compact] at h
    obtain ⟨hxy, hrs⟩ := quote_append_inj h
    exact ⟨by rw [String.toList_inj.1 hxy], hrs⟩
  | arr xs =>
    obtain ⟨ys, rfl⟩ : ∃ ys, b = .arr ys := by rcases b with _ | (_ | _) <;> simp_all [front]
    -- an empty array and one with items differ behind the bracket, where no value begins with
    -- another
    cases xs with
    | nil =>
      cases ys with
      | nil => exact ⟨rfl, List.append_cancel_left h⟩
      | cons y ys =>
        simp only [compact, List.cons_append, List.cons.injEq, true_and, List.append_assoc] at h
        exact absurd h.symm (compact_append_ne (Or.inl rfl))
    | cons x xs =>
      cases ys with
      | nil =>
        simp only [compact, List.cons_append, List.cons.injEq, true_and, List.append_assoc] at h
        exact absurd h (compact_append_ne (Or.inl rfl))
      | cons y ys =>
        simp only [compact, List.cons_append, List.cons.injEq, true_and, List.append_assoc] at h
        obtain ⟨rfl, hrest⟩ := compact_append_inj x y (stops_compactItems xs r)
          (stops_compactItems ys s) h
        obtain ⟨rfl, hrs⟩ := compactItems_append_inj xs ys hrest
        exact ⟨rfl, hrs⟩
  | obj fields =>
    obtain ⟨fields', rfl⟩ : ∃ ys, b = .obj ys := by rcases b with _ | (_ | _) <;> simp_all [front]
    cases fields with
    | nil =>
      cases fields' with
      | nil => exact ⟨rfl, List.append_cancel_left h⟩
      | cons p fields' =>
        simp only [compact, quote, List.cons_append, List.cons.injEq, true_and,
          List.append_assoc] at h
        exact absurd h.1 (by decide)
    | cons p fields =>
      obtain ⟨k, v⟩ := p
      cases fields' with
      | nil =>
        simp only [compact, quote, List.cons_append, List.cons.injEq, true_and,
          List.append_assoc] at h
        exact absurd h.1 (by decide)
      | cons p' fields' =>
        obtain ⟨k', v'⟩ := p'
        simp only [compact, List.cons_append, List.cons.injEq, true_and, List.append_assoc] at h
        obtain ⟨hk, hv⟩ := quote_append_inj h
        obtain ⟨rfl, hrest⟩ := compact_append_inj v v' (stops_compactFields fields r)
          (stops_compactFields fields' s) (List.cons.inj hv).2
        obtain ⟨rfl, hrs⟩ := compactFields_append_inj fields fields' hrest
        exact ⟨by rw [String.toList_inj.1 hk], hrs⟩

theorem compactItems_append_inj : ∀ (xs ys : List Json) {r s : List Char},
    compactItems xs ++ r = compactItems ys ++ s → xs = ys ∧ r = s := by
  intro xs ys r s h
  cases xs with
  | nil =>
    cases ys with
    | nil => exact ⟨rfl, List.append_cancel_left h⟩
    | cons y ys => simp [compactItems] at h
  | cons x xs =>
    cases ys with
    | nil => simp [compactItems] at h
    | cons y ys =>
      simp only [compactItems, List.cons_append, List.cons.injEq, true_and, List.append_assoc] at h
      obtain ⟨rfl, hrest⟩ := compact_append_inj x y (stops_compactItems xs r)
        (stops_compactItems ys s) h
      obtain ⟨rfl, hrs⟩ := compactItems_append_inj xs ys hrest
      exact ⟨rfl, hrs⟩

theorem compactFields_append_inj : ∀ (xs ys : List (String × Json)) {r s : List Char},
    compactFields xs ++ r = compactFields ys ++ s → xs = ys ∧ r = s := by
  intro xs ys r s h
  cases xs with
  | nil =>
    rcases ys with - | ⟨⟨k, v⟩, ys⟩
    · exact ⟨rfl, List.append_cancel_left h⟩
    · simp [compactFields] at h
  | cons p xs =>
    obtain ⟨k, v⟩ := p
    rcases ys with - | ⟨⟨k', v'⟩, ys⟩
    · simp [compactFields] at h
    · simp only [compactFields, List.cons_append, List.cons.injEq, true_and, List.append_assoc] at h
      obtain ⟨hk, hv⟩ := quote_append_inj h
      obtain ⟨rfl, hrest⟩ := compact_append_inj v v' (stops_compactFields xs r)
        (stops_compactFields ys s) (List.cons.inj hv).2
      obtain ⟨rfl, hrs⟩ := compactFields_append_inj xs ys hrest
      exact ⟨by rw [String.toList_inj.1 hk], hrs⟩

end

/-- **Values are told apart by their text.** -/
theorem print_injective : Function.Injective print := by
  intro a b h
  have htext : compact a ++ [] = compact b ++ [] := by
    rw [List.append_nil, List.append_nil]
    exact String.ofList_injective h
  have hnil : Stops [] := by simp [Stops]
  exact (compact_append_inj a b hnil hnil htext).1

end SheetLint.Json
