import SheetLint.Json.Loose
import SheetLint.Proofs.Except
import SheetLint.Proofs.Keyed

/-!
# Values that are read are sorted

An object that is read has its fields sorted by name, and so has every object inside of it
(`IsSorted`).  For fields are put in by name, in the order of the text, and putting one in keeps the
others sorted; of two fields with one name the later one is kept.

Values, items and fields are read by three readers that call each other, with one count of rounds.
So what is said of them is said together, by induction on the rounds.  That is enough for any text
that is read at all, as nothing is said of texts that are refused.
-/

namespace SheetLint.Json

/-- **Sorted values.**  The fields of every object in the value are sorted by name. -/
inductive IsSorted : Json → Prop
  | null : IsSorted .null
  | bool (b : Bool) : IsSorted (.bool b)
  | int (n : ℤ) : IsSorted (.int n)
  | float (x : Float) : IsSorted (.float x)
  | str (s : String) : IsSorted (.str s)
  | arr (items : List Json) : (∀ x ∈ items, IsSorted x) → IsSorted (.arr items)
  | obj (fields : Keyed Json) :
    fields.Sorted → (∀ p ∈ fields, IsSorted p.2) → IsSorted (.obj fields)

lemma isSorted_ofFields {fields : List (String × Json)} (h : ∀ p ∈ fields, p.2.IsSorted) :
    (ofFields fields).IsSorted :=
  .obj _ (Keyed.sorted_ofPairs fields) fun p hp => h p (Keyed.mem_of_mem_ofPairs hp)

/-! ### Numbers -/

namespace Number

variable {negative : Bool} {n : ℕ} {e : ℤ} {c c' : Cursor} {j : Json}

lemma isSorted_of_finish (h : finish negative n e c = .ok (j, c')) : j.IsSorted := by
  unfold finish at h
  split at h
  · cases h
    exact .float _
  · exact nomatch h

lemma isSorted_of_exponent (h : exponent negative n e c = .ok (j, c')) : j.IsSorted := by
  unfold exponent at h
  split at h
  next down c _ =>
  split at h
  next ds behind _ =>
  split at h
  · split at h <;> exact nomatch h
  split at h
  next k left _ =>
  split at h
  · exact isSorted_of_finish h
  split at h
  · exact nomatch h
  · cases h
    exact .float _

lemma isSorted_of_fraction (h : fraction negative n e c = .ok (j, c')) : j.IsSorted := by
  unfold fraction at h
  split at h
  next ds behind _ =>
  split at h
  · split at h <;> exact nomatch h
  split at h
  next m left _ =>
  unfold afterDigits at h
  split at h
  · exact isSorted_of_exponent h
  · exact isSorted_of_exponent h
  · exact isSorted_of_finish h

lemma isSorted_integer (negative : Bool) (n : ℕ) : (integer negative n).IsSorted := by
  unfold integer
  split_ifs
  · exact .int _
  · exact .float _
  · exact .int _

lemma isSorted_of_unsigned (h : unsigned negative c = .ok (j, c')) : j.IsSorted := by
  unfold unsigned at h
  split at h
  next ds behind _ =>
  split at h
  · split at h <;> exact nomatch h
  · exact nomatch h
  split at h
  next n left _ =>
  split at h
  · exact isSorted_of_fraction h
  · exact isSorted_of_exponent h
  · exact isSorted_of_exponent h
  split at h
  · cases h
    exact isSorted_integer negative n
  · exact isSorted_of_finish h

end Number

namespace Loose

lemma isSorted_numberValue (spelling : String) : (numberValue spelling).IsSorted := by
  unfold numberValue
  split
  split
  iterate 2
    · -- hexadecimal digits
      split
      · split
        · exact .int _
        · exact .str _
      · exact .str _
  · split
    · next h => exact Number.isSorted_of_unsigned h
    · exact .str _

/-! ### The grammar -/

lemma Stream.fail_ne_ok {α : Type} (s : Stream) (defect : Defect) (a : α) :
    s.fail defect ≠ .ok a := by
  unfold Stream.fail
  split <;> exact nofun

/-- **What is read is sorted**, be it a value, the items of an array or the fields of an object.  By
induction on the rounds, which the three readers share. -/
lemma isSorted_of_read (rounds : ℕ) :
    (∀ {absent s j s'}, value rounds absent s = .ok (j, s') → j.IsSorted) ∧
      (∀ {opened s xs s'}, items rounds opened s = .ok (xs, s') → ∀ x ∈ xs, x.IsSorted) ∧
      ∀ {opened s more s'}, fields rounds opened s = .ok (more, s') → ∀ p ∈ more, p.2.IsSorted := by
  induction rounds with
  | zero =>
    refine ⟨fun h => ?_, fun h => ?_, fun h => ?_⟩
    · exact nomatch h
    · exact nomatch h
    · exact nomatch h
  | succ rounds ih =>
    obtain ⟨hvalue, hitems, hfields⟩ := ih
    refine ⟨fun h => ?_, fun h => ?_, fun h => ?_⟩
    · rw [value] at h
      split at h
      · exact nomatch h
      split at h
      · obtain ⟨read, hread, h⟩ := exists_of_bind_eq_ok h
        cases h
        exact isSorted_ofFields (hfields hread)
      · obtain ⟨read, hread, h⟩ := exists_of_bind_eq_ok h
        cases h
        exact .arr _ (hitems hread)
      · cases h
        exact .null
      · cases h
        exact .bool _
      · cases h
        exact .str _
      · cases h
        exact isSorted_numberValue _
      iterate 5 exact absurd h (Stream.fail_ne_ok _ _ _)
      · exact nomatch h
    · rw [items] at h
      split at h
      · cases h
        exact List.forall_mem_nil _
      · obtain ⟨item, hitem, h⟩ := exists_of_bind_eq_ok h
        obtain ⟨more, hmore, h⟩ := exists_of_bind_eq_ok h
        cases h
        exact List.forall_mem_cons.mpr ⟨hvalue hitem, hitems hmore⟩
    · rw [fields] at h
      split at h
      · exact nomatch h
      · cases h
        exact List.forall_mem_nil _
      iterate 3
        · -- a string, a bare word or a number as the name
          obtain ⟨behind, -, h⟩ := exists_of_bind_eq_ok h
          obtain ⟨v, hv, h⟩ := exists_of_bind_eq_ok h
          obtain ⟨more, hmore, h⟩ := exists_of_bind_eq_ok h
          cases h
          exact List.forall_mem_cons.mpr ⟨hvalue hv, hfields hmore⟩
      · exact absurd h (Stream.fail_ne_ok _ _ _)

/-- **A text holds a sorted value.** -/
theorem isSorted_of_parse {text : String} {j : Json} (h : parse text = .ok (some j)) :
    j.IsSorted := by
  unfold parse at h
  split at h
  next lexed last _ =>
  split at h
  · exact nomatch h
  obtain ⟨⟨read, s⟩, hread, h⟩ := exists_of_bind_eq_ok h
  dsimp only at h
  split at h
  · cases h
    exact (isSorted_of_read _).1 hread
  · exact absurd h (s.fail_ne_ok _ _)

end Loose

end SheetLint.Json
