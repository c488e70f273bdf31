import Mathlib.Tactic.Lemma
import SheetLint.Glob

/-!
# The bytes of a text

Globs are about bytes and directories are sorted by characters.  Both views agree: the bytes of a
text are those of its characters one after another (`bytes_eq_flatMap`), and the order of the code
points is the order of the bytes (`bytes_lt_of_lt`), since of two characters the greater one is
greater at the first byte in which their encodings differ.

The encodings of two characters differ at a byte that both have: neither begins the other
(`utf8EncodeChar_append_ne`).  So what stands behind a character does not matter to which of two
texts comes first, and a text that begins with the bytes of a character begins with that character.
-/

namespace SheetLint.Glob

open String (utf8EncodeChar)

/-! ### One text behind another -/

lemma toList_loop_eq (bytes : ByteArray) (i : Nat) (front : List UInt8) :
    ByteArray.toList.loop bytes i front = front.reverse ++ bytes.data.toList.drop i := by
  fun_induction ByteArray.toList.loop bytes i front with
  | case1 i front h ih =>
    have hi : i < bytes.data.toList.length := by simpa using h
    rw [ih, List.drop_eq_getElem_cons hi]
    simp [ByteArray.get!, h]
  | case2 i front h =>
    have hnil : bytes.data.toList.drop i = [] :=
      List.drop_eq_nil_of_le (by simpa using Nat.le_of_not_lt h)
    rw [hnil, List.append_nil]

lemma bytes_eq_flatMap (path : String) : bytes path = path.toList.flatMap utf8EncodeChar := by
  have h : path.toUTF8 = (path.toList.flatMap utf8EncodeChar).toByteArray := by
    conv => lhs; rw [← String.ofList_toList (s := path)]
    rfl
  unfold bytes
  rw [h, ByteArray.toList, toList_loop_eq, List.toList_data_toByteArray]
  rfl

lemma bytes_append (a b : String) : bytes (a ++ b) = bytes a ++ bytes b := by
  simp only [bytes_eq_flatMap, String.toList_append, List.flatMap_append]

lemma bytes_slash : bytes "/" = [47] := by
  rw [bytes_eq_flatMap]
  rfl

/-! ### The order of texts -/

lemma ofNat_lt_iff (a b : Nat) : UInt8.ofNat a < UInt8.ofNat b ↔ a % 256 < b % 256 := by
  rw [UInt8.lt_iff_toNat_lt, UInt8.toNat_ofNat', UInt8.toNat_ofNat']

lemma ofNat_eq_iff (a b : Nat) : UInt8.ofNat a = UInt8.ofNat b ↔ a % 256 = b % 256 := by
  rw [← UInt8.toNat_inj, UInt8.toNat_ofNat', UInt8.toNat_ofNat']

/-- The encodings of two characters differ, and the lesser character has the lesser byte there. -/
lemma utf8EncodeChar_append_lt {c d : Char} (h : c < d) (u v : List UInt8) :
    utf8EncodeChar c ++ u < utf8EncodeChar d ++ v := by
  have hlt : c.val.toNat < d.val.toNat := h
  have hd : d.val.toNat < 1114112 := by
    have hvalid := d.valid
    simp only [UInt32.isValidChar, Nat.isValidChar] at hvalid
    omega
  unfold utf8EncodeChar
  generalize c.val.toNat = x at *
  generalize d.val.toNat = y at *
  -- one case for each pair of lengths; those in which `d` has fewer bytes contradict `hlt`
  have hdigits : ∀ n : Nat, n / 4096 = n / 64 / 64 ∧ n / 262144 = n / 64 / 64 / 64 := by
    intro n
    omega
  simp only [hdigits]
  repeat' split
  all_goals
    simp only [List.cons_append, List.nil_append, List.cons_lt_cons_iff, ofNat_lt_iff,
      ofNat_eq_iff]
    omega

lemma utf8EncodeChar_append_ne {c d : Char} (h : c ≠ d) (u v : List UInt8) :
    utf8EncodeChar c ++ u ≠ utf8EncodeChar d ++ v := by
  have hne : c.val.toNat ≠ d.val.toNat := fun heq => h (Char.ext (UInt32.toNat_inj.mp heq))
  intro heq
  rcases Nat.lt_or_gt_of_ne hne with hlt | hlt
  · have hless := utf8EncodeChar_append_lt (c := c) hlt u v
    exact List.lt_irrefl _ (heq ▸ hless)
  · have hless := utf8EncodeChar_append_lt (c := d) hlt v u
    exact List.lt_irrefl _ (heq ▸ hless)

lemma flatMap_utf8EncodeChar_lt {a b : List Char} (h : a < b) :
    a.flatMap utf8EncodeChar < b.flatMap utf8EncodeChar := by
  induction h with
  | @nil d b =>
    obtain ⟨x, front, hx⟩ := List.exists_cons_of_ne_nil (@String.utf8EncodeChar_ne_nil d)
    rw [List.flatMap_nil, List.flatMap_cons, hx]
    exact List.Lex.nil
  | rel hlt =>
    rw [List.flatMap_cons, List.flatMap_cons]
    exact utf8EncodeChar_append_lt hlt _ _
  | cons _ ih =>
    rw [List.flatMap_cons, List.flatMap_cons]
    exact List.append_left_lt ih

/-- **The order of the characters is the order of the bytes.** -/
lemma bytes_lt_of_lt {a b : String} (h : a < b) : bytes a < bytes b := by
  rw [bytes_eq_flatMap, bytes_eq_flatMap]
  exact flatMap_utf8EncodeChar_lt (String.lt_iff.mp h)

end SheetLint.Glob
