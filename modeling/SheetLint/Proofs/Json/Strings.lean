import Mathlib.Tactic.Lemma
import Mathlib.Tactic.IntervalCases
import SheetLint.Json.Printer
import SheetLint.Json.Text

/-!
# Reading back written strings

A character is written as itself, as a backslash with a name of one character, or, below the blank,
by its number in four hexadecimal digits (`escape_cases`).  Each of these is read as that character,
whatever has been read before and whatever follows (`readFrom_escape`).  So a quoted string is read
back whole, with the text behind it left, `readFrom_quote`.

Written numbers are below 32, so that none of them is half of a pair.  This is what keeps the reader
from looking for the other half.
-/

namespace SheetLint.Json

lemma hexValue?_digitChar {n : Nat} (h : n < 16) :
    Decimal.hexValue? (Nat.digitChar n) = some n := by
  interval_cases n <;> rfl

lemma utf8Size_digitChar {n : Nat} (h : n < 16) : (Nat.digitChar n).utf8Size = 1 := by
  interval_cases n <;> rfl

lemma checkHex_of_digits {pos : Pos} {a b : Nat} (ha : a < 16) (hb : b < 16) (rest : List Char) :
    Text.checkHex ⟨pos, '0' :: '0' :: Nat.digitChar a :: Nat.digitChar b :: rest⟩ = .ok () := by
  unfold Text.checkHex
  have hzero : '0'.utf8Size = 1 := rfl
  have hzero' : Decimal.hexValue? '0' = some 0 := rfl
  simp [Cursor.skipBytes, Cursor.skipBytes.go, hzero, hzero', utf8Size_digitChar ha,
    utf8Size_digitChar hb, hexValue?_digitChar ha, hexValue?_digitChar hb]

lemma named?_u : Text.named? 'u' = none := rfl

/-- The number of a control character is not half of a pair. -/
lemma not_half_of_control {n : Nat} (h : n < 0x20) :
    Text.isHigh n = false ∧ Text.isLow n = false := by
  simp only [Text.isHigh, Text.isLow, Bool.and_eq_false_iff, decide_eq_false_iff_not]
  omega

lemma readFrom_control {c : Char} (h : c.toNat < 0x20) (read : List Char) (pos : Pos)
    (rest : List Char) :
    ∃ pos', Text.readFrom read .plain pos
        ('\\' :: 'u' :: '0' :: '0' :: Nat.digitChar (c.toNat / 16) ::
          Nat.digitChar (c.toNat % 16) :: rest) =
      Text.readFrom (c :: read) .plain pos' rest := by
  have hhigh : c.toNat / 16 < 16 := by omega
  have hlow : c.toNat % 16 < 16 := by omega
  have hzero : Decimal.hexValue? '0' = some 0 := rfl
  have hvalue : 16 * (c.toNat / 16) + c.toNat % 16 = c.toNat := by omega
  obtain ⟨hisHigh, hisLow⟩ := not_half_of_control h
  refine ⟨?_, ?_⟩
  rotate_left
  · rw [Text.readFrom]
    simp only [show ¬ ('\\' : Char) = '\x22' by decide, if_true, if_false]
    rw [Text.readFrom]
    simp only [named?_u, if_true, checkHex_of_digits hhigh hlow]
    simp [Text.readFrom, hzero, hexValue?_digitChar hhigh, hexValue?_digitChar hlow, hvalue, hisLow,
      hisHigh]
    rfl

/-- **How a character is written**: by a name behind a backslash, by its number, or as itself. -/
lemma escape_cases (c : Char) :
    (∃ d, escape c = ['\\', d] ∧ Text.named? d = some c) ∨
      (c.toNat < 0x20 ∧ escape c = ['\\', 'u', '0', '0', Nat.digitChar (c.toNat / 16),
        Nat.digitChar (c.toNat % 16)]) ∨
      escape c = [c] ∧ c ≠ '\x22' ∧ c ≠ '\\' ∧ ¬ c.toNat < 0x20 := by
  by_cases hnamed : c ∈ ['\x22', '\\', '\n', '\r', '\t', '\x08', '\x0c']
  · refine Or.inl ?_
    simp only [List.mem_cons, List.not_mem_nil, or_false] at hnamed
    rcases hnamed with rfl | rfl | rfl | rfl | rfl | rfl | rfl <;> exact ⟨_, rfl, rfl⟩
  · simp only [List.mem_cons, List.not_mem_nil, or_false, not_or] at hnamed
    obtain ⟨hquote, hslash, hother⟩ := hnamed
    have hescape : escape c = if c.toNat < 0x20 then ['\\', 'u', '0', '0',
        Nat.digitChar (c.toNat / 16), Nat.digitChar (c.toNat % 16)] else [c] := by
      simp only [escape, hquote, hslash, hother, if_false]
    rw [hescape]
    by_cases hcontrol : c.toNat < 0x20
    · exact Or.inr (Or.inl ⟨hcontrol, if_pos hcontrol⟩)
    · exact Or.inr (Or.inr ⟨if_neg hcontrol, hquote, hslash, hcontrol⟩)

lemma readFrom_escape (c : Char) (read : List Char) (pos : Pos) (rest : List Char) :
    ∃ pos', Text.readFrom read .plain pos (escape c ++ rest) =
      Text.readFrom (c :: read) .plain pos' rest := by
  rcases escape_cases c with ⟨d, hescape, hd⟩ | ⟨hcontrol, hescape⟩ |
    ⟨hescape, hquote, hslash, hcontrol⟩
  · refine ⟨(pos.behind '\\').behind d, ?_⟩
    rw [hescape]
    simp [Text.readFrom, hd]
  · rw [hescape]
    exact readFrom_control hcontrol read pos rest
  · refine ⟨pos.behind c, ?_⟩
    rw [hescape, List.singleton_append, Text.readFrom]
    simp only [hquote, hslash, hcontrol, if_false]

/-- **A written string is read back**, and what follows it is left. -/
theorem readFrom_quote (s : List Char) (read : List Char) (pos : Pos) (rest : List Char) :
    ∃ pos', Text.readFrom read .plain pos (s.flatMap escape ++ '\x22' :: rest) =
      .ok (read.reverse ++ s, ⟨pos', rest⟩) := by
  induction s generalizing read pos with
  | nil =>
    refine ⟨pos.behind '\x22', ?_⟩
    rw [List.flatMap_nil, List.nil_append, List.append_nil, Text.readFrom]
    rfl
  | cons c s ih =>
    obtain ⟨p, hp⟩ := readFrom_escape c read pos (s.flatMap escape ++ '\x22' :: rest)
    obtain ⟨p', hp'⟩ := ih (c :: read) p
    refine ⟨p', ?_⟩
    rw [List.flatMap_cons, List.append_assoc, hp, hp']
    simp

end SheetLint.Json
