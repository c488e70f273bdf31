import Mathlib.Data.List.TakeWhile
import SheetLint.Proofs.Decimal.Rounding

/-!
# Reading printed decimals

The text of a printed decimal denotes the value of the decimal, whichever of the forms was chosen
(`textValue_render`).  There are four of them: digits and zeros in front of `.0`, a point inside of
the digits, a point in front of zeros and digits, and one digit with an exponent.  Each has a lemma
of its own on `textValue`, which reads any such text.

So a printed double can be told from its text, and its bits from its value.  The value that is
printed need not be that of the double, but it rounds to the double and to no other, and the sign is
printed in front: `float_injective`.

What a printed decimal looks like, `IsDecimal`, tells it from the text of an integer.  It begins
with a digit and has a point or an exponent.
-/

namespace SheetLint.Decimal

/-! ## The value of a text -/

/-- The exponent that a text ends in. -/
def exponentOf : List Char → ℤ
  | 'e' :: '+' :: digits => valueFrom 0 digits
  | 'e' :: '-' :: digits => -valueFrom 0 digits
  | _ => 0

/-- The value of an unsigned decimal.  Its point and its exponent may be missing. -/
def textValue (text : List Char) : ℚ :=
  let mantissa := text.takeWhile (· != 'e')
  let whole := mantissa.takeWhile (· != '.')
  let fraction := (mantissa.dropWhile (· != '.')).tail
  valueFrom 0 (whole ++ fraction) *
    (10 : ℚ) ^ (exponentOf (text.dropWhile (· != 'e')) - fraction.length)

/-- A text of digits. -/
def AllDigits (text : List Char) : Prop := ∀ c ∈ text, c.isDigit = true

lemma allDigits_natural (n : ℕ) : AllDigits (natural n) := fun _ hc =>
  Nat.isDigit_of_mem_toDigits (by decide) (by decide) hc

lemma AllDigits.append {a b : List Char} (ha : AllDigits a) (hb : AllDigits b) :
    AllDigits (a ++ b) := by
  intro c hc
  rcases List.mem_append.1 hc with h | h
  · exact ha c h
  · exact hb c h

lemma allDigits_replicate_zero (n : ℕ) : AllDigits (List.replicate n '0') := by
  intro c hc
  rw [List.eq_of_mem_replicate hc]
  decide

lemma AllDigits.ne {text : List Char} (h : AllDigits text) {d : Char} (hd : d.isDigit = false) :
    ∀ c ∈ text, (c != d) = true := by
  intro c hc
  have := h c hc
  rw [bne_iff_ne]
  rintro rfl
  simp [hd] at this

lemma valueFrom_append (n : ℕ) (a b : List Char) :
    valueFrom n (a ++ b) = valueFrom (valueFrom n a) b := by
  simp [valueFrom]

lemma valueFrom_natural (n : ℕ) : valueFrom 0 (natural n) = n :=
  Nat.ofDigitChars_ten_toDigits

lemma valueFrom_replicate_zero (n k : ℕ) :
    valueFrom n (List.replicate k '0') = n * 10 ^ k := by
  have h : Nat.ofDigitChars 10 (List.replicate k '0') n = 10 ^ k * n :=
    Nat.ofDigitChars_replicate_zero
  rw [mul_comm]
  exact h

lemma textValue_point {whole fraction exponent : List Char} (hw : AllDigits whole)
    (hf : AllDigits fraction) (he : exponent = [] ∨ exponent.head? = some 'e') :
    textValue (whole ++ '.' :: fraction ++ exponent) =
      valueFrom 0 (whole ++ fraction) * 10 ^ (exponentOf exponent - fraction.length) := by
  have hmantissa : ∀ c ∈ whole ++ '.' :: fraction, (c != 'e') = true := by
    intro c hc
    rcases List.mem_append.1 hc with h | h
    · exact hw.ne rfl c h
    · rcases List.mem_cons.1 h with rfl | h
      · rfl
      · exact hf.ne rfl c h
  have htake : exponent.takeWhile (· != 'e') = [] := by
    rcases he with rfl | h
    · rfl
    · obtain ⟨r, rfl⟩ := List.head?_eq_some_iff.1 h
      rfl
  have hdrop : exponent.dropWhile (· != 'e') = exponent := by
    rcases he with rfl | h
    · rfl
    · obtain ⟨r, rfl⟩ := List.head?_eq_some_iff.1 h
      rfl
  unfold textValue
  simp only
  rw [List.takeWhile_append_of_pos hmantissa, List.dropWhile_append_of_pos hmantissa, htake, hdrop,
    List.append_nil, List.takeWhile_append_of_pos (hw.ne rfl),
    List.dropWhile_append_of_pos (hw.ne rfl)]
  simp

lemma textValue_whole {whole exponent : List Char} (hw : AllDigits whole)
    (he : exponent = [] ∨ exponent.head? = some 'e') :
    textValue (whole ++ exponent) = valueFrom 0 whole * 10 ^ exponentOf exponent := by
  have htake : exponent.takeWhile (· != 'e') = [] := by
    rcases he with rfl | h
    · rfl
    · obtain ⟨r, rfl⟩ := List.head?_eq_some_iff.1 h
      rfl
  have hdrop : exponent.dropWhile (· != 'e') = exponent := by
    rcases he with rfl | h
    · rfl
    · obtain ⟨r, rfl⟩ := List.head?_eq_some_iff.1 h
      rfl
  have htakeDot : whole.takeWhile (· != '.') = whole := List.takeWhile_eq_self_iff.2 (hw.ne rfl)
  have hdropDot : whole.dropWhile (· != '.') = [] := List.dropWhile_eq_nil_iff.2 (hw.ne rfl)
  have htakeE : (whole ++ exponent).takeWhile (· != 'e') = whole := by
    rw [List.takeWhile_append_of_pos (hw.ne rfl), htake, List.append_nil]
  have hdropE : (whole ++ exponent).dropWhile (· != 'e') = exponent := by
    rw [List.dropWhile_append_of_pos (hw.ne rfl), hdrop]
  unfold textValue
  simp only
  rw [htakeE, hdropE, htakeDot, hdropDot]
  simp

lemma exponentOf_integer (z : ℤ) :
    exponentOf ('e' :: (if 0 ≤ z then ['+'] else []) ++ integer z) = z := by
  cases z with
  | ofNat n =>
    have h : (0 : ℤ) ≤ Int.ofNat n := Int.natCast_nonneg n
    simp only [h, if_true, integer]
    show ((valueFrom 0 (natural n) : ℕ) : ℤ) = n
    rw [valueFrom_natural]
  | negSucc n =>
    have h : ¬ (0 : ℤ) ≤ Int.negSucc n := by omega
    simp only [h, if_false, integer]
    show -((valueFrom 0 (natural (n + 1)) : ℕ) : ℤ) = Int.negSucc n
    rw [valueFrom_natural]
    omega

/-! ## Printed decimals -/

lemma textValue_wholeNumber (s : Scientific) (h : 0 ≤ s.exponent) :
    textValue (natural s.digits ++ List.replicate s.exponent.toNat '0' ++ ['.', '0']) =
      s.value := by
  have hdigits := allDigits_natural s.digits
  have hpoint := textValue_point (hdigits.append (allDigits_replicate_zero s.exponent.toNat))
    (allDigits_replicate_zero 1) (Or.inl rfl : ([] : List Char) = [] ∨ _)
  rw [List.append_nil] at hpoint
  refine hpoint.trans ?_
  rw [valueFrom_append, valueFrom_append, valueFrom_natural, valueFrom_replicate_zero,
    valueFrom_replicate_zero, Scientific.value]
  have hto : s.exponent = (s.exponent.toNat : ℤ) := by omega
  rw [hto]
  simp only [exponentOf, Int.toNat_natCast, List.length_replicate]
  rw [zpow_natCast]
  push_cast
  norm_num
  ring

lemma textValue_pointInside (s : Scientific) (h : s.exponent < 0)
    (hpoint : 0 < (natural s.digits).length + s.exponent) :
    textValue ((natural s.digits).take ((natural s.digits).length + s.exponent).toNat ++
      '.' :: (natural s.digits).drop ((natural s.digits).length + s.exponent).toNat) =
      s.value := by
  have hdigits := allDigits_natural s.digits
  set n := ((natural s.digits).length + s.exponent).toNat with hn
  have hwhole : AllDigits ((natural s.digits).take n) :=
    fun c hc => hdigits c (List.mem_of_mem_take hc)
  have hfraction : AllDigits ((natural s.digits).drop n) :=
    fun c hc => hdigits c (List.mem_of_mem_drop hc)
  have hvalue := textValue_point hwhole hfraction (Or.inl rfl : ([] : List Char) = [] ∨ _)
  rw [List.append_nil] at hvalue
  refine hvalue.trans ?_
  rw [List.take_append_drop, valueFrom_natural, Scientific.value, List.length_drop]
  congr 2
  simp only [exponentOf]
  omega

lemma textValue_pointBefore (s : Scientific)
    (hpoint : (natural s.digits).length + s.exponent ≤ 0) :
    textValue (['0', '.'] ++
      List.replicate (-((natural s.digits).length + s.exponent)).toNat '0' ++
      natural s.digits) = s.value := by
  have hdigits := allDigits_natural s.digits
  have hzero : AllDigits ['0'] := allDigits_replicate_zero 1
  have hvalue := textValue_point hzero ((allDigits_replicate_zero
    (-((natural s.digits).length + s.exponent)).toNat).append hdigits)
    (Or.inl rfl : ([] : List Char) = [] ∨ _)
  rw [List.append_nil] at hvalue
  refine Eq.trans ?_ (hvalue.trans ?_)
  · simp
  · have hlead : valueFrom 0 ['0'] = 0 := rfl
    rw [valueFrom_append, valueFrom_append, hlead, valueFrom_replicate_zero, Nat.zero_mul,
      valueFrom_natural, Scientific.value]
    congr 2
    simp only [exponentOf, List.length_append, List.length_replicate]
    omega

/-- A first digit, more behind a point if there are more, and an exponent. -/
lemma textValue_scientific (s : Scientific) {first : Char} {rest : List Char}
    (hnat : natural s.digits = first :: rest) {exponent : List Char}
    (hhead : exponent.head? = some 'e')
    (hexponent : exponentOf exponent = (natural s.digits).length + s.exponent - 1) :
    textValue (first :: (if rest.isEmpty then [] else '.' :: rest) ++ exponent) = s.value := by
  have hdigits := allDigits_natural s.digits
  rw [hnat] at hdigits hexponent
  have hfirst : AllDigits [first] := fun c hc => hdigits c (by simp_all)
  have hrest : AllDigits rest := fun c hc => hdigits c (by simp [hc])
  have hvalue := valueFrom_natural s.digits
  rw [hnat] at hvalue
  split
  · rename_i hempty
    rw [List.isEmpty_iff] at hempty
    subst hempty
    refine (textValue_whole hfirst (Or.inr hhead)).trans ?_
    rw [hexponent, hvalue, Scientific.value]
    congr 2
    simp
  · refine Eq.trans ?_ ((textValue_point hfirst hrest (Or.inr hhead)).trans ?_)
    · simp
    · rw [hexponent, List.singleton_append, hvalue, Scientific.value]
      congr 2
      simp only [List.length_cons]
      push_cast
      ring

/-- **A printed decimal denotes its value.** -/
theorem textValue_render {l : Layout} (hwhole : l.whole = ['.', '0']) (hplus : l.plus = ['+'])
    (s : Scientific) : textValue (l.render s) = s.value := by
  unfold Layout.render
  simp only [hwhole, hplus]
  split
  · split
    · rename_i hexp
      exact textValue_wholeNumber s hexp
    · split
      · rename_i hexp hpoint
        exact textValue_pointInside s (by omega) hpoint
      · rename_i hexp hpoint
        exact textValue_pointBefore s (by omega)
  -- the form with an exponent, which needs a first digit
  · have hexponent := exponentOf_integer ((natural s.digits).length + s.exponent - 1)
    have hcount : 0 < (natural s.digits).length := Nat.length_toDigits_pos
    cases hnat : natural s.digits with
    | nil => simp [hnat] at hcount
    | cons first rest =>
      rw [hnat] at hexponent
      rw [List.append_assoc]
      exact textValue_scientific s hnat rfl (by rw [hnat]; exact hexponent)

/-! ## Printed doubles -/

/-- What a number consists of. -/
def isNumeric (c : Char) : Bool := c.isDigit || c == '-' || c == '+' || c == '.' || c == 'e'

lemma isNumeric_of_isDigit {c : Char} (h : c.isDigit = true) : isNumeric c = true := by
  simp [isNumeric, h]

lemma isNumeric_integer (z : ℤ) : ∀ c ∈ integer z, isNumeric c = true := by
  intro c hc
  cases z with
  | ofNat n => exact isNumeric_of_isDigit (allDigits_natural n c hc)
  | negSucc n =>
    rcases List.mem_cons.1 hc with rfl | h
    · rfl
    · exact isNumeric_of_isDigit (allDigits_natural (n + 1) c h)

/-- The text begins with a digit. -/
def StartsWithDigit (text : List Char) : Prop := ∃ c rest, text = c :: rest ∧ c.isDigit = true

lemma StartsWithDigit.append {text : List Char} (h : StartsWithDigit text) (r : List Char) :
    StartsWithDigit (text ++ r) := by
  obtain ⟨c, rest, rfl, hc⟩ := h
  exact ⟨c, rest ++ r, rfl, hc⟩

lemma startsWithDigit_natural (n : ℕ) : StartsWithDigit (natural n) := by
  have hcount : 0 < (natural n).length := Nat.length_toDigits_pos
  have hdigits := allDigits_natural n
  cases hnat : natural n with
  | nil => simp [hnat] at hcount
  | cons c rest => exact ⟨c, rest, rfl, hdigits c (by simp [hnat])⟩

/-- Only zero begins with a zero.  By the recursion that gives the digits: the first digit of a
number of several is that of its tenth. -/
lemma natural_ne_zero_cons {n : ℕ} (hn : n ≠ 0) (rest : List Char) : natural n ≠ '0' :: rest := by
  induction n using Nat.strongRecOn generalizing rest with
  | ind n ih =>
    by_cases hlt : n < 10
    · have hdigit : ∀ m < 10, m ≠ 0 → Nat.digitChar m ≠ '0' := by decide
      rw [natural, Nat.toDigits_of_lt_base hlt]
      intro h
      exact hdigit n hlt hn (List.cons.inj h).1
    · obtain ⟨c, front, hfront, -⟩ := startsWithDigit_natural (n / 10)
      have hc := ih (n / 10) (by omega) (by omega) front
      rw [natural, Nat.toDigits_of_base_le (by decide) (not_lt.1 hlt), ← natural, hfront]
      intro h
      rw [List.cons_append, List.cons.injEq] at h
      exact hc (by rw [hfront, h.1])

/-- What a printed decimal looks like: it is a number, begins with a digit and shows by a point or
an exponent that it is no integer. -/
structure IsDecimal (text : List Char) : Prop where
  numeric : ∀ c ∈ text, isNumeric c = true
  digit : StartsWithDigit text
  marked : '.' ∈ text ∨ 'e' ∈ text

lemma isDecimal_render {l : Layout} (hwhole : l.whole = ['.', '0']) (hplus : l.plus = ['+'])
    (s : Scientific) : IsDecimal (l.render s) := by
  have hdigits := allDigits_natural s.digits
  have hnumeric : ∀ c ∈ natural s.digits, isNumeric c = true := fun c hc =>
    isNumeric_of_isDigit (hdigits c hc)
  have hzeros : ∀ n, ∀ c ∈ List.replicate n '0', isNumeric c = true := fun n c hc =>
    isNumeric_of_isDigit (allDigits_replicate_zero n c hc)
  obtain ⟨first, rest, hnat, hfirst⟩ := startsWithDigit_natural s.digits
  -- The cases are the four forms, in the order of the definition.
  unfold Layout.render
  simp only [hwhole, hplus]
  split
  · split
    · refine ⟨?_, ?_, Or.inl (by simp)⟩
      · simp only [List.forall_mem_append]
        exact ⟨⟨hnumeric, hzeros _⟩, by simp [isNumeric]⟩
      · exact ((startsWithDigit_natural _).append _).append _
    · split
      · rename_i hpoint
        refine ⟨?_, ?_, Or.inl (by simp)⟩
        · intro c hc
          rcases List.mem_append.1 hc with h | h
          · exact hnumeric c (List.mem_of_mem_take h)
          · rcases List.mem_cons.1 h with rfl | h
            · rfl
            · exact hnumeric c (List.mem_of_mem_drop h)
        · refine StartsWithDigit.append ?_ _
          obtain ⟨n, hn⟩ : ∃ n, ((natural s.digits).length + s.exponent).toNat = n + 1 :=
            ⟨((natural s.digits).length + s.exponent).toNat - 1, by omega⟩
          rw [hn, hnat]
          exact ⟨first, rest.take n, rfl, hfirst⟩
      · refine ⟨?_, ⟨'0', _, rfl, rfl⟩, Or.inl (by simp)⟩
        simp only [List.forall_mem_append]
        exact ⟨⟨by simp [isNumeric], hzeros _⟩, hnumeric⟩
  · rw [hnat] at hnumeric ⊢
    simp only
    refine ⟨?_, ⟨first, _, rfl, hfirst⟩, Or.inr (by simp)⟩
    have hrest : ∀ c ∈ rest, isNumeric c = true := fun c hc =>
      hnumeric c (List.mem_cons_of_mem _ hc)
    have hmantissa : ∀ c ∈ first :: (if rest.isEmpty then [] else '.' :: rest),
        isNumeric c = true := by
      intro c hc
      rcases List.mem_cons.1 hc with rfl | h
      · exact isNumeric_of_isDigit hfirst
      · split at h
        · simp at h
        · rcases List.mem_cons.1 h with rfl | h
          · rfl
          · exact hrest c h
    have hsign : ∀ z : ℤ, ∀ c ∈ 'e' :: (if 0 ≤ z then ['+'] else []), isNumeric c = true := by
      intro z c hc
      split at hc <;> simp at hc <;> rcases hc with rfl | rfl <;> rfl
    simp only [List.forall_mem_append]
    exact ⟨⟨hmantissa, hsign _⟩, isNumeric_integer _⟩

lemma Dyadic.isNearest_zero {b : Dyadic} (hm : b.m = 0) : b.IsNearest 0 := by
  unfold IsNearest low high
  simp only [hm, Nat.zero_mod, if_true]
  refine ⟨?_, by positivity⟩
  simp

/-- The decimal that a double is printed as. -/
def Dyadic.printed (b : Dyadic) : Scientific := if b.m = 0 then ⟨0, 0⟩ else b.shortest.strip 20

lemma Dyadic.isNearest_printed {b : Dyadic} (hb : b.IsBinary64) : b.IsNearest b.printed.value := by
  unfold printed
  split
  · rename_i hm
    rw [show (⟨0, 0⟩ : Scientific).value = 0 by simp [Scientific.value]]
    exact isNearest_zero hm
  · rename_i hm
    rw [Scientific.value_strip]
    exact shortest_isNearest hb hm

/-- Whether the sign bit is set. -/
def isNegative (bits : UInt64) : Bool := bits.toNat / twoPow 63 = 1

lemma float_eq (l : Layout) (x : Float) :
    l.float x = (if isNegative x.toBits then ['-'] else []) ++
      l.render (Dyadic.ofBits x.toBits).printed := by
  simp [Layout.float, isNegative, Dyadic.printed]

lemma eq_of_ofBits_eq {a b : UInt64} (hsign : isNegative a = isNegative b)
    (h : Dyadic.ofBits a = Dyadic.ofBits b) : a = b := by
  have ha := a.toNat_lt
  have hb := b.toNat_lt
  have htwo : ∀ n, twoPow n = 2 ^ n := fun _ => rfl
  rw [Bool.eq_iff_iff] at hsign
  simp only [isNegative, decide_eq_true_eq, htwo] at hsign
  apply UInt64.toNat_inj.1
  unfold Dyadic.ofBits at h
  simp only [htwo] at h
  split at h <;> split at h <;> simp only [Dyadic.mk.injEq] at h <;> omega

lemma float_injective_of_toBits {x y : Float} (h : x.toBits = y.toBits) : x = y := by
  cases x with
  | ofModel m =>
    cases y with
    | ofModel n =>
      cases m
      cases n
      congr

/-- **Doubles are printed apart.** -/
theorem float_injective {x y : Float} (h : jsonLayout.float x = jsonLayout.float y) : x = y := by
  rw [float_eq, float_eq] at h
  obtain ⟨c, restx, hx, hc⟩ := (isDecimal_render (l := jsonLayout) rfl rfl
    (Dyadic.ofBits x.toBits).printed).digit
  obtain ⟨d, resty, hy, hd⟩ := (isDecimal_render (l := jsonLayout) rfl rfl
    (Dyadic.ofBits y.toBits).printed).digit
  -- a text that begins with a digit is that of a double without a sign
  have hbits : isNegative x.toBits = isNegative y.toBits ∧
      jsonLayout.render (Dyadic.ofBits x.toBits).printed =
        jsonLayout.render (Dyadic.ofBits y.toBits).printed := by
    rw [hx, hy] at h ⊢
    generalize isNegative x.toBits = a at h ⊢
    generalize isNegative y.toBits = b at h ⊢
    cases a <;> cases b <;> simp at h ⊢
    · exact h
    · obtain ⟨rfl, -⟩ := h
      exact absurd hc (by decide)
    · obtain ⟨rfl, -⟩ := h
      exact absurd hd (by decide)
    · exact h
  obtain ⟨hsign, htext⟩ := hbits
  have hvalue :
      (Dyadic.ofBits x.toBits).printed.value = (Dyadic.ofBits y.toBits).printed.value := by
    rw [← textValue_render (l := jsonLayout) rfl rfl, htext, textValue_render rfl rfl]
  have hx' := Dyadic.isNearest_printed (Dyadic.isBinary64_ofBits x.toBits)
  have hy' := Dyadic.isNearest_printed (Dyadic.isBinary64_ofBits y.toBits)
  rw [hvalue] at hx'
  exact float_injective_of_toBits (eq_of_ofBits_eq hsign (Dyadic.eq_of_isNearest
    (Dyadic.isBinary64_ofBits _) (Dyadic.isBinary64_ofBits _) hx' hy'))

end SheetLint.Decimal
