import Mathlib.Algebra.Order.Field.Power
import Mathlib.Algebra.Order.Ring.Rat
import Mathlib.Data.Rat.Cast.Defs
import Mathlib.Tactic.FieldSimp
import Mathlib.Tactic.Linarith
import Mathlib.Tactic.NormNum
import Mathlib.Tactic.Positivity
import Mathlib.Tactic.Ring
import SheetLint.Decimal

/-!
# Shortest decimals are nearest

The shortest decimal of a double lies in the interval of the numbers that are rounded to the double
(`Dyadic.shortest_isNearest`).  Its grid is coarse enough to have few digits and fine enough to have
a point in that interval; both comparisons are made in whole numbers, which `sameScale` ties to the
values.

The intervals of different doubles do not meet, so a decimal rounds to one double at most:
`Dyadic.eq_of_isNearest`.  Within a binade the intervals are of one width, and share at most an end,
which belongs to the even one of the two.  Between binades the lower end is closer, by the half of
it.  Both are measured in quarters of a unit, since then all ends are whole.

That there is a point at all is shown for the grid with seventeen digits below the value.  It is
finer than a quarter of a unit, so that the point below the value is above the lower end.
-/

namespace SheetLint.Decimal

/-- The value of a decimal. -/
def Scientific.value (s : Scientific) : ℚ := s.digits * (10 : ℚ) ^ s.exponent

lemma powUp_eq_mul_powDown (b : ℕ) (hb : 0 < b) (e : ℤ) :
    (powUp b e : ℚ) = (b : ℚ) ^ e * (powDown b e : ℚ) := by
  have hb' : (b : ℚ) ≠ 0 := by exact_mod_cast hb.ne'
  have hdiff : (e.toNat : ℤ) = e + ((-e).toNat : ℤ) := by omega
  simp only [powUp, powDown, Nat.pow_eq]
  push_cast
  rw [← zpow_natCast, ← zpow_natCast, ← zpow_add₀ hb', hdiff]

lemma powUp_pos (b : ℕ) (hb : 0 < b) (e : ℤ) : 0 < powUp b e := Nat.pow_pos hb

lemma powDown_pos (b : ℕ) (hb : 0 < b) (e : ℤ) : 0 < powDown b e := Nat.pow_pos hb

/-- **The two sides of a comparison.**  They are the two values, scaled alike. -/
lemma sameScale_eq (k : ℕ) (e : ℤ) (n : ℕ) (s : ℤ) :
    ∃ c : ℚ, 0 < c ∧ ((sameScale k e n s).1 : ℚ) = k * (10 : ℚ) ^ e * c ∧
      ((sameScale k e n s).2 : ℚ) = n * (2 : ℚ) ^ s * c := by
  refine ⟨powDown 10 e * powDown 2 s, ?_, ?_, ?_⟩
  · have h10 := powDown_pos 10 (by decide) e
    have h2 := powDown_pos 2 (by decide) s
    exact_mod_cast Nat.mul_pos h10 h2
  · simp only [sameScale]
    push_cast
    rw [powUp_eq_mul_powDown 10 (by decide) e]
    push_cast
    ring
  · simp only [sameScale]
    push_cast
    rw [powUp_eq_mul_powDown 2 (by decide) s]
    push_cast
    ring

lemma sameScale_le (k : ℕ) (e : ℤ) (n : ℕ) (s : ℤ) :
    (sameScale k e n s).1 ≤ (sameScale k e n s).2 ↔ (k : ℚ) * 10 ^ e ≤ n * 2 ^ s := by
  obtain ⟨c, hc, h1, h2⟩ := sameScale_eq k e n s
  rw [← Nat.cast_le (α := ℚ), h1, h2]
  exact mul_le_mul_iff_left₀ hc

lemma sameScale_ge (k : ℕ) (e : ℤ) (n : ℕ) (s : ℤ) :
    (sameScale k e n s).2 ≤ (sameScale k e n s).1 ↔ (n : ℚ) * 2 ^ s ≤ k * 10 ^ e := by
  obtain ⟨c, hc, h1, h2⟩ := sameScale_eq k e n s
  rw [← Nat.cast_le (α := ℚ), h1, h2]
  exact mul_le_mul_iff_left₀ hc

namespace Dyadic

/-- The value of a double. -/
def value (b : Dyadic) : ℚ := b.m * (2 : ℚ) ^ b.q

/-- The lower end of the interval that rounds to a double. -/
def low (b : Dyadic) : ℚ := (4 * b.m - (if b.lowerIsClose then 1 else 2) : ℕ) * (2 : ℚ) ^ (b.q - 2)

/-- The upper end of that interval. -/
def high (b : Dyadic) : ℚ := (4 * b.m + 2 : ℕ) * (2 : ℚ) ^ (b.q - 2)

/-- The value rounds to the double.  The ends of the interval do when the double is even. -/
def IsNearest (b : Dyadic) (v : ℚ) : Prop :=
  if b.m % 2 = 0 then b.low ≤ v ∧ v ≤ b.high else b.low < v ∧ v < b.high

lemma admits_iff (b : Dyadic) (k : ℕ) (e : ℤ) :
    b.admits k e = true ↔ b.IsNearest ((⟨k, e⟩ : Scientific).value) := by
  unfold admits IsNearest Scientific.value low high
  by_cases h : b.m % 2 = 0
  · simp only [h, if_true, Bool.and_eq_true, decide_eq_true_eq]
    rw [sameScale_le, sameScale_ge]
  · simp only [h, if_false, Bool.and_eq_true, decide_eq_true_eq]
    rw [← not_le, ← not_le, ← not_le, ← not_le, sameScale_le, sameScale_ge]

/-! ### Doubles are told apart -/

/-- The shape of the doubles: the finest binade is shared by the subnormal ones, and a double at the
bottom of any other binade has a close lower neighbour. -/
structure IsBinary64 (b : Dyadic) : Prop where
  m_lt : b.m < 2 ^ 53
  q_ge : -1074 ≤ b.q
  m_ge : -1074 < b.q → 2 ^ 52 ≤ b.m
  close_iff : b.lowerIsClose = true ↔ b.m = 2 ^ 52 ∧ -1074 < b.q

lemma isBinary64_ofBits (bits : UInt64) : (ofBits bits).IsBinary64 := by
  have hf : bits.toNat % 2 ^ 52 < 2 ^ 52 := Nat.mod_lt _ (by positivity)
  have htwo : ∀ n, twoPow n = 2 ^ n := fun _ => rfl
  unfold ofBits
  simp only [htwo]
  split
  · rename_i h
    exact ⟨by simp only; omega, by simp, by simp, by simp⟩
  · rename_i h
    refine ⟨by simp only; omega, by simp only; omega, by simp only; omega, ?_⟩
    simp only [Bool.and_eq_true, decide_eq_true_eq]
    omega

/-- How far the lower end is below the value, in quarters of a unit. -/
def gap (b : Dyadic) : ℕ := if b.lowerIsClose then 1 else 2

lemma gap_le (b : Dyadic) : b.gap ≤ 2 := by
  unfold gap
  split <;> omega

lemma one_le_gap (b : Dyadic) : 1 ≤ b.gap := by
  unfold gap
  split <;> omega

lemma le_high {b : Dyadic} {v : ℚ} (h : b.IsNearest v) : v ≤ b.high := by
  unfold IsNearest at h
  split at h
  · exact h.2
  · exact h.2.le

lemma low_le {b : Dyadic} {v : ℚ} (h : b.IsNearest v) : b.low ≤ v := by
  unfold IsNearest at h
  split at h
  · exact h.1
  · exact h.1.le

lemma lt_high {b : Dyadic} {v : ℚ} (h : b.IsNearest v) (hodd : b.m % 2 = 1) : v < b.high := by
  unfold IsNearest at h
  rw [if_neg (by omega)] at h
  exact h.2

lemma low_lt {b : Dyadic} {v : ℚ} (h : b.IsNearest v) (hodd : b.m % 2 = 1) : b.low < v := by
  unfold IsNearest at h
  rw [if_neg (by omega)] at h
  exact h.1

/-- Within a binade, what rounds to a smaller double is smaller. -/
lemma lt_of_isNearest_of_m_lt {b c : Dyadic} (hq : b.q = c.q) (hm : b.m < c.m) {v w : ℚ}
    (hv : b.IsNearest v) (hw : c.IsNearest w) : v < w := by
  have hu : (0 : ℚ) < 2 ^ (c.q - 2) := by positivity
  have hgap := c.gap_le
  have hle : b.high ≤ c.low := by
    unfold high low
    rw [hq]
    refine mul_le_mul_of_nonneg_right ?_ hu.le
    have : 4 * b.m + 2 ≤ 4 * c.m - c.gap := by omega
    exact_mod_cast this
  -- an end belongs to both intervals only if both doubles are even, and then they are no neighbours
  rcases Nat.mod_two_eq_zero_or_one b.m with hb | hb
  · rcases Nat.mod_two_eq_zero_or_one c.m with hc | hc
    · have hlt : b.high < c.low := by
        unfold high low
        rw [hq]
        refine mul_lt_mul_of_pos_right ?_ hu
        have : 4 * b.m + 2 < 4 * c.m - c.gap := by omega
        exact_mod_cast this
      exact (le_high hv).trans_lt (hlt.trans_le (low_le hw))
    · exact (le_high hv).trans_lt (hle.trans_lt (low_lt hw hc))
  · exact (lt_high hv hb).trans_le (hle.trans (low_le hw))

lemma lt_of_isNearest_of_q_lt {b c : Dyadic} (hb : b.IsBinary64) (hc : c.IsBinary64)
    (hq : b.q < c.q) {v w : ℚ} (hv : b.IsNearest v) (hw : c.IsNearest w) : v < w := by
  have hbq := hb.q_ge
  have hbm := hb.m_lt
  have hcm := hc.m_ge (by omega)
  have hu : (0 : ℚ) < 2 ^ (b.q - 2) := by positivity
  have hscale : (2 : ℚ) * 2 ^ (b.q - 2) ≤ 2 ^ (c.q - 2) := by
    rw [← zpow_one_add₀ (by norm_num)]
    exact zpow_le_zpow_right₀ (by norm_num) (by omega)
  -- The lower end of the upper interval is lowest at the bottom of its binade, where it is close.
  have hbottom : 2 ^ 54 - 1 ≤ 4 * c.m - c.gap := by
    have hgap := c.gap_le
    by_cases hmin : c.m = 2 ^ 52
    · have hclose : c.lowerIsClose = true := hc.close_iff.2 ⟨hmin, by omega⟩
      simp only [gap, hclose, if_true]
      omega
    · omega
  have hlow : ((2 ^ 55 - 2 : ℕ) : ℚ) * 2 ^ (b.q - 2) ≤ c.low := by
    have hcast : ((2 ^ 54 - 1 : ℕ) : ℚ) ≤ ((4 * c.m - c.gap : ℕ) : ℚ) := by exact_mod_cast hbottom
    calc ((2 ^ 55 - 2 : ℕ) : ℚ) * 2 ^ (b.q - 2)
        = ((2 ^ 54 - 1 : ℕ) : ℚ) * (2 * 2 ^ (b.q - 2)) := by push_cast; ring
      _ ≤ ((4 * c.m - c.gap : ℕ) : ℚ) * 2 ^ (c.q - 2) :=
        mul_le_mul hcast hscale (by positivity) (by positivity)
      _ = c.low := rfl
  rcases Nat.mod_two_eq_zero_or_one b.m with hpar | hpar
  · have hhigh : b.high < ((2 ^ 55 - 2 : ℕ) : ℚ) * 2 ^ (b.q - 2) := by
      refine mul_lt_mul_of_pos_right ?_ hu
      have : 4 * b.m + 2 < 2 ^ 55 - 2 := by omega
      exact_mod_cast this
    exact (le_high hv).trans_lt (hhigh.trans_le (hlow.trans (low_le hw)))
  · have hhigh : b.high ≤ ((2 ^ 55 - 2 : ℕ) : ℚ) * 2 ^ (b.q - 2) := by
      refine mul_le_mul_of_nonneg_right ?_ hu.le
      have : 4 * b.m + 2 ≤ 2 ^ 55 - 2 := by omega
      exact_mod_cast this
    exact (lt_high hv hpar).trans_le (hhigh.trans (hlow.trans (low_le hw)))

/-- **No value rounds to two doubles.** -/
theorem eq_of_isNearest {b c : Dyadic} (hb : b.IsBinary64) (hc : c.IsBinary64) {v : ℚ}
    (hv : b.IsNearest v) (hw : c.IsNearest v) : b = c := by
  have hq : b.q = c.q := by
    by_contra hne
    rcases lt_or_gt_of_ne hne with h | h
    · exact lt_irrefl v (lt_of_isNearest_of_q_lt hb hc h hv hw)
    · exact lt_irrefl v (lt_of_isNearest_of_q_lt hc hb h hw hv)
  have hm : b.m = c.m := by
    by_contra hne
    rcases lt_or_gt_of_ne hne with h | h
    · exact lt_irrefl v (lt_of_isNearest_of_m_lt hq h hv hw)
    · exact lt_irrefl v (lt_of_isNearest_of_m_lt hq.symm h hw hv)
  have hclose : b.lowerIsClose = c.lowerIsClose := by
    rw [Bool.eq_iff_iff, hb.close_iff, hc.close_iff, hm, hq]
  cases b
  cases c
  simp_all

/-! ### The shortest decimal rounds to its double -/

lemma floorAt_spec (b : Dyadic) (e : ℤ) :
    (b.floorAt e : ℚ) * 10 ^ e ≤ b.value ∧ b.value < ((b.floorAt e + 1 : ℕ) : ℚ) * 10 ^ e := by
  have hpos : 0 < powDown 2 b.q * powUp 10 e :=
    Nat.mul_pos (powDown_pos 2 (by decide) b.q) (powUp_pos 10 (by decide) e)
  have hscaled : ∀ k, (sameScale k e b.m b.q).1 = k * (powDown 2 b.q * powUp 10 e) := by
    intro k
    simp only [sameScale]
    ring
  have hother : ∀ k, (sameScale k e b.m b.q).2 = b.m * powUp 2 b.q * powDown 10 e := fun _ => rfl
  constructor
  · refine (sameScale_le _ _ _ _).1 ?_
    rw [hscaled, hother]
    exact Nat.div_mul_le_self _ _
  · rw [← not_le]
    intro h
    have hnat := (sameScale_le _ _ _ _).2 h
    rw [hscaled, hother] at hnat
    have hk := (Nat.le_div_iff_mul_le hpos).2 hnat
    have : b.floorAt e + 1 ≤ b.floorAt e := hk
    omega

lemma onGrid?_isNearest {b : Dyadic} {e : ℤ} {s : Scientific} (h : b.onGrid? e = some s) :
    b.IsNearest s.value := by
  unfold onGrid? at h
  simp only at h
  -- whichever point of the grid is chosen has been admitted
  split at h
  · rename_i both
    simp only [Bool.and_eq_true] at both
    rw [Option.some.injEq] at h
    subst h
    split
    · exact (b.admits_iff _ _).1 both.2
    · exact (b.admits_iff _ _).1 both.1.2
  · split at h
    · rename_i lower
      simp only [Bool.and_eq_true] at lower
      rw [Option.some.injEq] at h
      subst h
      exact (b.admits_iff _ _).1 lower.2
    · split at h
      · rename_i upper
        rw [Option.some.injEq] at h
        subst h
        exact (b.admits_iff _ _).1 upper
      · simp at h

end Dyadic

lemma lt_ten_pow_length_natural (n : ℕ) : n < 10 ^ (natural n).length :=
  (Nat.length_toDigits_le_iff (by decide) Nat.length_toDigits_pos).1 le_rfl

lemma ten_pow_length_natural_le {n : ℕ} (hn : n ≠ 0) : 10 ^ ((natural n).length - 1) ≤ n := by
  by_cases hlen : (natural n).length - 1 = 0
  · rw [hlen]
    omega
  · by_contra hlt
    have h := (Nat.length_toDigits_le_iff (by decide : 1 < 10) (Nat.pos_of_ne_zero hlen)).2
      (not_le.1 hlt)
    have hpos : 0 < (natural n).length := Nat.length_toDigits_pos
    simp only [natural] at h hpos hlen
    omega

namespace Dyadic

/-- The value is at least a tenth of the power of ten above it. -/
lemma ten_pow_magnitude_le {b : Dyadic} (hm : b.m ≠ 0) :
    (10 : ℚ) ^ (b.magnitude - 1) ≤ b.value := by
  unfold magnitude
  simp only
  split
  · rename_i hwhole
    have hlen : 0 < (natural (b.floorAt 0)).length := Nat.length_toDigits_pos
    have hpow := ten_pow_length_natural_le hwhole
    have hfloor := (b.floorAt_spec 0).1
    rw [zpow_zero, mul_one] at hfloor
    refine le_trans ?_ hfloor
    have hpred : ((natural (b.floorAt 0)).length : ℤ) - 1 =
        (((natural (b.floorAt 0)).length - 1 : ℕ) : ℤ) := by
      omega
    rw [hpred, zpow_natCast]
    exact_mod_cast hpow
  -- below one, the digits of the reciprocal count the zeros behind the point
  · set r := powDown 2 b.q / b.m with hr
    have hscale : b.value * powDown 2 b.q = b.m * powUp 2 b.q := by
      rw [powUp_eq_mul_powDown 2 (by decide) b.q, value]
      push_cast
      ring
    have hmpos : (0 : ℚ) < b.m := by exact_mod_cast Nat.pos_of_ne_zero hm
    have hvpos : 0 < b.value := by
      unfold value
      positivity
    have hD : (powDown 2 b.q : ℚ) ≤ 10 ^ (natural r).length * b.m := by
      have hdiv : powDown 2 b.q < (r + 1) * b.m := by
        have h := Nat.lt_mul_div_succ (powDown 2 b.q) (Nat.pos_of_ne_zero hm)
        rwa [Nat.mul_comm] at h
      have hlen := lt_ten_pow_length_natural r
      have hmul : (r + 1) * b.m ≤ 10 ^ (natural r).length * b.m := Nat.mul_le_mul_right _ hlen
      exact_mod_cast hdiv.le.trans hmul
    have hU : (1 : ℚ) ≤ powUp 2 b.q := by exact_mod_cast powUp_pos 2 (by decide) b.q
    rw [show (1 - ((natural r).length : ℤ) - 1) = -((natural r).length : ℤ) by ring, zpow_neg,
      zpow_natCast, inv_le_iff_one_le_mul₀ (by positivity)]
    have hchain : (b.m : ℚ) * 1 ≤ b.m * (b.value * 10 ^ (natural r).length) := by
      calc (b.m : ℚ) * 1 ≤ b.m * powUp 2 b.q := by gcongr
        _ = b.value * powDown 2 b.q := hscale.symm
        _ ≤ b.value * (10 ^ (natural r).length * b.m) := by gcongr
        _ = b.m * (b.value * 10 ^ (natural r).length) := by ring
    exact le_of_mul_le_mul_left hchain hmpos

lemma isNearest_of_lt_of_lt {b : Dyadic} {v : ℚ} (hlow : b.low < v) (hhigh : v < b.high) :
    b.IsNearest v := by
  unfold IsNearest
  split
  · exact ⟨hlow.le, hhigh.le⟩
  · exact ⟨hlow, hhigh⟩

/-- A grid with seventeen digits below the value holds a decimal that rounds to the double. -/
lemma onGrid?_isSome {b : Dyadic} (hb : b.IsBinary64) {e : ℤ} (he : (10 : ℚ) ^ (e + 17) ≤ b.value) :
    (b.onGrid? e).isSome = true := by
  obtain ⟨hfloor, hnext⟩ := b.floorAt_spec e
  set k := b.floorAt e with hk
  have hten : (0 : ℚ) < 10 ^ e := by positivity
  have hu : (0 : ℚ) < 2 ^ (b.q - 2) := by positivity
  have hvalue : b.value = 4 * b.m * 2 ^ (b.q - 2) := by
    rw [value, show b.q = 2 + (b.q - 2) by ring, zpow_add₀ (by norm_num)]
    norm_num
    ring
  rw [zpow_add₀ (by norm_num)] at he
  -- The grid is finer than a quarter of a unit of the double.
  have hfine : (10 : ℚ) ^ e < 2 ^ (b.q - 2) := by
    have hm : (b.m : ℚ) ≤ 9007199254740992 := by exact_mod_cast hb.m_lt.le
    rw [hvalue] at he
    norm_num at he
    nlinarith
  have hm : b.m ≠ 0 := by
    intro h0
    rw [hvalue, h0] at he
    norm_num at he
    linarith
  have hlow : b.low < k * 10 ^ e := by
    have hsub : ((4 * b.m - b.gap : ℕ) : ℚ) ≤ 4 * b.m - 1 := by
      have hgap := b.one_le_gap
      have hnat : 4 * b.m - b.gap + 1 ≤ 4 * b.m := by omega
      have hcast : ((4 * b.m - b.gap : ℕ) : ℚ) + 1 ≤ 4 * b.m := by exact_mod_cast hnat
      linarith
    have hle : b.low ≤ (4 * b.m - 1) * 2 ^ (b.q - 2) := mul_le_mul_of_nonneg_right hsub hu.le
    push_cast at hnext
    linarith
  have hhigh : k * 10 ^ e < b.high := by
    unfold high
    push_cast
    linarith
  have hadmits : b.admits k e = true := (b.admits_iff k e).2 (isNearest_of_lt_of_lt hlow hhigh)
  have hkpos : k ≠ 0 := by
    intro h0
    rw [h0] at hnext
    norm_num at he hnext
    linarith
  unfold onGrid?
  simp only [← hk, hadmits]
  split
  · rfl
  · simp [hkpos]

/-- **The shortest decimal reads back.**  It rounds to the double that it is made from. -/
theorem shortest_isNearest {b : Dyadic} (hb : b.IsBinary64) (hm : b.m ≠ 0) :
    b.IsNearest b.shortest.value := by
  unfold shortest
  simp only
  have hgrid : (b.onGrid? (b.magnitude - 1 - (17 : ℕ))).isSome = true := by
    refine onGrid?_isSome hb ?_
    have h := ten_pow_magnitude_le hm
    rwa [show b.magnitude - 1 - (17 : ℕ) + 17 = b.magnitude - 1 by push_cast; ring]
  cases hfind : (List.range 18).findSome? fun i : ℕ => b.onGrid? (b.magnitude - 1 - i) with
  | none =>
    rw [List.findSome?_eq_none_iff] at hfind
    rw [hfind 17 (by simp)] at hgrid
    simp at hgrid
  | some s =>
    obtain ⟨i, -, hi⟩ := List.exists_of_findSome?_eq_some hfind
    exact onGrid?_isNearest hi

end Dyadic

lemma Scientific.value_strip (n : ℕ) (s : Scientific) : (s.strip n).value = s.value := by
  induction n generalizing s with
  | zero => rfl
  | succ n ih =>
    unfold strip
    split
    · rename_i h
      rw [ih]
      have hdigits : s.digits = 10 * (s.digits / 10) := by omega
      simp only [value]
      rw [zpow_add_one₀ (by norm_num)]
      conv_rhs => rw [hdigits]
      push_cast
      ring
    · rfl

end SheetLint.Decimal
