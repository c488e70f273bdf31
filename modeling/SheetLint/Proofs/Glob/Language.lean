import Mathlib.Tactic.Lemma
import SheetLint.Glob

/-!
# The texts that an expression describes

Matching follows the places of a text that can be reached.  What it decides can be said without
places: `Describes` gives the texts of each expression by recursion on it, and an expression matches
a text exactly if it describes it (`matches?_iff`).

The invariant says of one place what reaches it: it is reached behind an expression if the text
between it and some place reached before is described (`getElem?_behind`).  It is proved for any
list of places to begin with, so that the places behind the first of two expressions can be those
before the second.  Of a run of bytes the code keeps only one bit, whether the run can go on;
`getElem?_behindRun` says what the bit stands for.

Tokens in a row describe texts in a row (`tokensDescribe_append`), so that a glob can be cut between
any two tokens.  From here on globs are only talked about through what their tokens describe.  The
one exception is a glob that is `**` alone: it matches every path, also those without a slash at the
front (`matchesPath_ofTokens_iff`).
-/

namespace SheetLint.Glob

namespace Expr

/-- **The language of an expression**: the texts that the expression describes. -/
def Describes : Expr → List UInt8 → Prop
  | .empty, text => text = []
  | .byte cls, text => ∃ b, text = [b] ∧ cls.contains b = true
  | .run cls, text => ∀ b ∈ text, cls.contains b = true
  | .seq first second, text => ∃ u v, text = u ++ v ∧ first.Describes u ∧ second.Describes v
  | .alt first second, text => first.Describes text ∨ second.Describes text

/-- The text between two places. -/
def between (text : List UInt8) (i j : Nat) : List UInt8 := (text.take j).drop i

lemma between_append {text : List UInt8} {i k j : Nat} (hik : i ≤ k) (hkj : k ≤ j) :
    between text i k ++ between text k j = between text i j := by
  unfold between
  have hk : text.take k = (text.take j).take k := by
    rw [List.take_take, Nat.min_eq_left hkj]
  have hd : (text.take j).drop k = ((text.take j).drop i).drop (k - i) := by
    rw [List.drop_drop, Nat.add_sub_cancel' hik]
  rw [hk, hd, List.drop_take, List.take_append_drop]

lemma between_self (text : List UInt8) (i : Nat) : between text i i = [] := by
  unfold between
  apply List.drop_eq_nil_of_le
  rw [List.length_take]
  exact Nat.min_le_left i text.length

lemma length_between {text : List UInt8} {i j : Nat} (hj : j ≤ text.length) :
    (between text i j).length = j - i := by
  unfold between
  rw [List.length_drop, List.length_take, Nat.min_eq_left hj]

lemma exists_place_of_between_eq {text u v : List UInt8} {i j : Nat} (hij : i ≤ j)
    (hj : j ≤ text.length) (h : between text i j = u ++ v) :
    ∃ k, i ≤ k ∧ k ≤ j ∧ u = between text i k ∧ v = between text k j := by
  have hlen : j - i = u.length + v.length := by
    rw [← length_between hj, h, List.length_append]
  have hle : i + u.length ≤ j := by omega
  have happ : between text i (i + u.length) ++ between text (i + u.length) j = u ++ v := by
    rw [between_append (by omega) hle, h]
  have hu : (between text i (i + u.length)).length = u.length := by
    rw [length_between (by omega)]
    omega
  obtain ⟨h1, h2⟩ := List.append_inj happ hu
  exact ⟨i + u.length, by omega, hle, h1.symm, h2.symm⟩

/-! ### Places -/

lemma length_behindRun (cls : ByteClass) (isInside : Bool) (text : List UInt8)
    (reached : List Bool) (h : reached.length = text.length + 1) :
    (behindRun cls isInside text reached).length = text.length + 1 := by
  induction text generalizing isInside reached with
  | nil =>
    match reached with
    | [_] => rfl
  | cons b text ih =>
    match reached with
    | r :: reached =>
      have hlen : reached.length = text.length + 1 := by simpa using h
      simp [behindRun, ih _ _ hlen]

lemma length_behind (e : Expr) (text : List UInt8) (reached : List Bool)
    (h : reached.length = text.length + 1) : (e.behind text reached).length = text.length + 1 := by
  induction e generalizing reached with
  | empty => exact h
  | byte cls =>
    simp [behind, behindByte, h]
  | run cls => exact length_behindRun cls false text reached h
  | seq first second ih1 ih2 => exact ih2 _ (ih1 _ h)
  | alt first second ih1 ih2 => simp [behind, ih1 _ h, ih2 _ h]

lemma getElem?_behindByte (cls : ByteClass) (text : List UInt8) (reached : List Bool) (j : Nat) :
    (behindByte cls text reached)[j]? = some true ↔
      ∃ i b, j = i + 1 ∧ text[i]? = some b ∧ reached[i]? = some true ∧ cls.contains b = true := by
  cases j with
  | zero => simp [behindByte]
  | succ i =>
    simp only [behindByte, List.getElem?_cons_succ, List.getElem?_zipWith]
    constructor
    · intro h
      cases hb : text[i]? with
      | none => simp [hb] at h
      | some b =>
        cases hr : reached[i]? with
        | none => simp [hb, hr] at h
        | some r =>
          have h : r = true ∧ cls.contains b = true := by simpa [hb, hr] using h
          exact ⟨i, b, rfl, hb, by rw [hr, h.1], h.2⟩
    · rintro ⟨i', b, hi, hb, hr, hc⟩
      obtain rfl : i = i' := by omega
      simp [hb, hr, hc]

lemma getElem?_behindRun (cls : ByteClass) (isInside : Bool) (text : List UInt8)
    (reached : List Bool) (h : reached.length = text.length + 1) (j : Nat) (hj : j ≤ text.length) :
    (behindRun cls isInside text reached)[j]? = some true ↔
      (isInside = true ∧ ∀ b ∈ text.take j, cls.contains b = true) ∨
        ∃ i, i ≤ j ∧ reached[i]? = some true ∧ ∀ b ∈ between text i j, cls.contains b = true := by
  induction text generalizing isInside reached j with
  | nil =>
    match reached with
    | [r] =>
      obtain rfl : j = 0 := by simpa using hj
      simp [behindRun, between]
  | cons b text ih =>
    match reached with
    | r :: reached =>
      have hlen : reached.length = text.length + 1 := by simpa using h
      cases j with
      | zero => simp [behindRun, between]
      | succ j =>
        have hj' : j ≤ text.length := by simpa using hj
        simp only [behindRun, List.getElem?_cons_succ]
        -- The run that is carried into the rest has begun before the text, or at its first place.
        rw [ih _ _ hlen j hj']
        constructor
        · rintro (⟨hin, hall⟩ | ⟨i, hij, hr, hall⟩)
          · rw [Bool.and_eq_true, Bool.or_eq_true] at hin
            obtain ⟨hin | hr, hb⟩ := hin
            · exact Or.inl ⟨hin, by simpa [hb] using hall⟩
            · exact Or.inr ⟨0, by omega, by simpa using hr, by simpa [between, hb] using hall⟩
          · exact Or.inr ⟨i + 1, by omega, by simpa using hr, by simpa [between] using hall⟩
        · rintro (⟨hin, hall⟩ | ⟨i, hij, hr, hall⟩)
          · refine Or.inl ⟨?_, fun c hc => hall c (by simp [hc])⟩
            simp [hin, hall b (by simp)]
          -- a run that begins at the first place is the one carried into the rest
          · cases i with
            | zero =>
              have hr : r = true := by simpa using hr
              refine Or.inl ⟨?_, fun c hc => hall c (by simp [between, hc])⟩
              simp [hr, hall b (by simp [between])]
            | succ i =>
              exact Or.inr ⟨i, by omega, by simpa using hr, by simpa [between] using hall⟩

/-- **Places and texts.**  A place is reached behind an expression if the expression describes the
text between it and a place reached before. -/
lemma getElem?_behind (e : Expr) (text : List UInt8) (reached : List Bool)
    (h : reached.length = text.length + 1) (j : Nat) (hj : j ≤ text.length) :
    (e.behind text reached)[j]? = some true ↔
      ∃ i, i ≤ j ∧ reached[i]? = some true ∧ e.Describes (between text i j) := by
  induction e generalizing reached j with
  | empty =>
    constructor
    · intro hr
      exact ⟨j, Nat.le_refl j, hr, between_self text j⟩
    · rintro ⟨i, hij, hr, hnil⟩
      -- nothing is between the places, so they are the same
      have hlen := @length_between text i j hj
      rw [show between text i j = [] from hnil] at hlen
      obtain rfl : i = j := by
        have : j - i = 0 := hlen.symm
        omega
      exact hr
  | byte cls =>
    rw [behind, getElem?_behindByte]
    constructor
    · rintro ⟨i, b, rfl, hb, hr, hc⟩
      refine ⟨i, by omega, hr, b, ?_, hc⟩
      obtain ⟨hi, rfl⟩ := List.getElem?_eq_some_iff.mp hb
      rw [between, List.drop_take, List.drop_eq_getElem_cons hi, Nat.add_sub_cancel_left]
      rfl
    · rintro ⟨i, hij, hr, b, hb, hc⟩
      have hlen := @length_between text i j hj
      rw [hb] at hlen
      obtain rfl : j = i + 1 := by
        have : 1 = j - i := hlen
        omega
      refine ⟨i, b, rfl, ?_, hr, hc⟩
      have hhead : (between text i (i + 1))[0]? = some b := by simp [hb]
      simpa [between, List.getElem?_drop, List.getElem?_take] using hhead
  | run cls =>
    rw [behind, getElem?_behindRun cls false text reached h j hj]
    simp [Describes]
  -- the place in the middle is where the first text ends
  | seq first second ih1 ih2 =>
    rw [behind, ih2 _ (length_behind first text reached h) j hj]
    constructor
    · rintro ⟨k, hkj, hk, h2⟩
      obtain ⟨i, hik, hi, h1⟩ := (ih1 reached h k (by omega)).mp hk
      exact ⟨i, by omega, hi, _, _, (between_append hik hkj).symm, h1, h2⟩
    · rintro ⟨i, hij, hi, u, v, huv, h1, h2⟩
      obtain ⟨k, hik, hkj, rfl, rfl⟩ := exists_place_of_between_eq hij hj huv
      exact ⟨k, hkj, (ih1 reached h k (by omega)).mpr ⟨i, hik, hi, h1⟩, h2⟩
  | alt first second ih1 ih2 =>
    have h1 : j < (first.behind text reached).length := by
      rw [length_behind first text reached h]
      omega
    have h2 : j < (second.behind text reached).length := by
      rw [length_behind second text reached h]
      omega
    have hor : (behind text (.alt first second) reached)[j]? = some true ↔
        (first.behind text reached)[j]? = some true ∨
          (second.behind text reached)[j]? = some true := by
      rw [behind, List.getElem?_zipWith, List.getElem?_eq_getElem h1, List.getElem?_eq_getElem h2]
      simp
    rw [hor, ih1 reached h j hj, ih2 reached h j hj]
    constructor
    · rintro (⟨i, hij, hi, h1⟩ | ⟨i, hij, hi, h2⟩)
      · exact ⟨i, hij, hi, Or.inl h1⟩
      · exact ⟨i, hij, hi, Or.inr h2⟩
    · rintro ⟨i, hij, hi, h1 | h2⟩
      · exact Or.inl ⟨i, hij, hi, h1⟩
      · exact Or.inr ⟨i, hij, hi, h2⟩

/-- **Matching is exact.**  An expression matches the texts that it describes. -/
theorem matches?_iff (e : Expr) (text : List UInt8) :
    e.matches? text = true ↔ e.Describes text := by
  have hlen : (true :: List.replicate text.length false).length = text.length + 1 := by simp
  have hfront : ∀ i, (true :: List.replicate text.length false)[i]? = some true ↔ i = 0 := by
    intro i
    cases i with
    | zero => simp
    | succ i => simp [List.getElem?_replicate]
  have hlast := getElem?_behind e text _ hlen text.length (Nat.le_refl _)
  unfold matches?
  rw [List.getLast?_eq_getElem?, length_behind e text _ hlen, Nat.add_sub_cancel, beq_iff_eq, hlast]
  constructor
  · rintro ⟨i, -, hi, he⟩
    obtain rfl := (hfront i).mp hi
    simpa [between] using he
  · intro he
    exact ⟨0, Nat.zero_le _, (hfront 0).mpr rfl, by simpa [between] using he⟩

/-! ### Expressions in a row -/

lemma describes_andThen (e f : Expr) (text : List UInt8) :
    (e.andThen f).Describes text ↔ ∃ u v, text = u ++ v ∧ e.Describes u ∧ f.Describes v := by
  unfold andThen
  split
  · constructor
    · intro h
      exact ⟨[], text, rfl, rfl, h⟩
    · rintro ⟨u, v, rfl, rfl, h⟩
      exact h
  · constructor
    · intro h
      exact ⟨text, [], (List.append_nil text).symm, h, rfl⟩
    · rintro ⟨u, v, rfl, h, rfl⟩
      rwa [List.append_nil]
  · exact Iff.rfl

lemma describes_exactly (b : UInt8) (text : List UInt8) :
    (exactly b).Describes text ↔ text = [b] := by
  have hc : ∀ c, ByteClass.contains ⟨false, [(b, b)]⟩ c = true ↔ c = b := by
    intro c
    have hle : b ≤ c ∧ c ≤ b ↔ c = b := by
      rw [UInt8.le_iff_toNat_le, UInt8.le_iff_toNat_le, ← UInt8.toNat_inj]
      omega
    simpa [ByteClass.contains] using hle
  constructor
  · rintro ⟨c, rfl, h⟩
    rw [(hc c).mp h]
  · rintro rfl
    exact ⟨b, rfl, (hc b).mpr rfl⟩

lemma describes_sequence_exactly (bytes text : List UInt8) :
    (sequence (bytes.map exactly)).Describes text ↔ text = bytes := by
  induction bytes generalizing text with
  | nil => exact Iff.rfl
  | cons b bytes ih =>
    have hcons : sequence ((b :: bytes).map exactly) =
        (exactly b).andThen (sequence (bytes.map exactly)) := rfl
    rw [hcons, describes_andThen]
    constructor
    · rintro ⟨u, v, rfl, hu, hv⟩
      rw [(describes_exactly b u).mp hu, (ih v).mp hv]
      rfl
    · rintro rfl
      exact ⟨[b], bytes, rfl, (describes_exactly b [b]).mpr rfl, (ih bytes).mpr rfl⟩

end Expr

/-! ### What tokens describe -/

/-- Tokens in a row describe the bytes. -/
def TokensDescribe (tokens : List Token) (text : List UInt8) : Prop :=
  (tokensExpr tokens).Describes text

lemma tokensDescribe_cons (t : Token) (tokens : List Token) (text : List UInt8) :
    TokensDescribe (t :: tokens) text ↔
      ∃ u v, text = u ++ v ∧ t.expr.Describes u ∧ TokensDescribe tokens v := by
  unfold TokensDescribe
  rw [tokensExpr, Expr.describes_andThen]

lemma tokensDescribe_append (front back : List Token) (text : List UInt8) :
    TokensDescribe (front ++ back) text ↔
      ∃ u v, text = u ++ v ∧ TokensDescribe front u ∧ TokensDescribe back v := by
  induction front generalizing text with
  | nil =>
    constructor
    · intro h
      exact ⟨[], text, rfl, rfl, h⟩
    · rintro ⟨u, v, rfl, rfl, h⟩
      exact h
  | cons t front ih =>
    rw [List.cons_append, tokensDescribe_cons]
    constructor
    · rintro ⟨u, v, rfl, hu, hv⟩
      obtain ⟨v, w, rfl, hv, hw⟩ := (ih v).mp hv
      refine ⟨u ++ v, w, (List.append_assoc u v w).symm, ?_, hw⟩
      exact (tokensDescribe_cons t front (u ++ v)).mpr ⟨u, v, rfl, hu, hv⟩
    · rintro ⟨u, w, rfl, hu, hw⟩
      obtain ⟨u, v, rfl, hu, hv⟩ := (tokensDescribe_cons t front u).mp hu
      exact ⟨u, v ++ w, List.append_assoc u v w, hu, (ih (v ++ w)).mpr ⟨v, w, rfl, hv, hw⟩⟩

lemma tokensDescribe_singleton (t : Token) (text : List UInt8) :
    TokensDescribe [t] text ↔ t.expr.Describes text := by
  rw [tokensDescribe_cons]
  constructor
  · rintro ⟨u, v, rfl, hu, rfl⟩
    rwa [List.append_nil]
  · intro h
    exact ⟨text, [], (List.append_nil text).symm, h, rfl⟩

lemma describes_anything (text : List UInt8) : anything.Describes text := by
  intro b _
  rfl

lemma describes_slash (text : List UInt8) : slash.Describes text ↔ text = [47] :=
  Expr.describes_exactly 47 text

lemma describes_literal (c : Char) (text : List UInt8) :
    (Token.literal c).expr.Describes text ↔ text = String.utf8EncodeChar c := by
  rw [Token.expr, Expr.describes_sequence_exactly]

lemma describes_componentsLast (text : List UInt8) :
    Token.componentsLast.expr.Describes text ↔ ∃ below, text = 47 :: below := by
  rw [Token.expr]
  constructor
  · rintro ⟨u, below, rfl, hu, -⟩
    rw [(describes_slash u).mp hu]
    exact ⟨below, rfl⟩
  · rintro ⟨below, rfl⟩
    exact ⟨[47], below, rfl, (describes_slash [47]).mpr rfl, describes_anything below⟩

lemma describes_componentsBetween {text : List UInt8}
    (h : Token.componentsBetween.expr.Describes text) : ∃ below, text = 47 :: below := by
  rw [Token.expr] at h
  rcases h with h | ⟨u, v, rfl, hu, -⟩
  · exact ⟨[], (describes_slash text).mp h⟩
  · rw [(describes_slash u).mp hu]
    exact ⟨v, rfl⟩

lemma matchesPath_ofTokens_iff (tokens : List Token) (path : String) :
    (ofTokens tokens).matchesPath path = true ↔
      tokens = [.componentsFirst] ∨ TokensDescribe tokens (bytes path) := by
  unfold matchesPath
  rw [Expr.matches?_iff]
  unfold ofTokens
  split
  · exact ⟨fun _ => Or.inl rfl, fun _ => describes_anything (bytes path)⟩
  · next hne =>
    exact ⟨Or.inr, fun h => h.resolve_left hne⟩

end SheetLint.Glob
