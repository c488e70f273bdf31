import SheetLint.Json.Schema.Check
import SheetLint.Proofs.Json.Loose.Sorted

/-!
# Checking keeps values sorted

A schema takes a value apart and puts its regular form together.  What it puts together of sorted
parts is sorted again, but for the records: the fields of a record stand in the order of the schema.
So the fields of a record are sorted values, and the record itself need not be one
(`Check.exists_of_record`).

There is one lemma for each way to make a check of others.  A slot also has a default, which has to
be sorted as well, `Slot.KeepsSorted`.

Records are given as objects or as arrays.  Of an object the known fields are checked and the
unknown ones passed over; of an array the items are checked in the order of the slots, and what is
missing at the end is at its default.
-/

namespace SheetLint.Json

namespace Check

/-- The check makes sorted values of sorted values. -/
def KeepsSorted (check : Check) : Prop :=
  ∀ ⦃v w : Json⦄, v.IsSorted → check v = .ok w → w.IsSorted

/-! ### The parts of a record -/

lemma keepsSorted_ok : KeepsSorted .ok := by
  intro v w hv h
  cases h
  exact hv

lemma keepsSorted_flag : KeepsSorted flag := by
  intro v w _ h
  unfold flag at h
  split at h
  · cases h
    exact .bool _
  · exact nomatch h

lemma keepsSorted_text (expected : String) : KeepsSorted (text expected) := by
  intro v w _ h
  unfold text at h
  split at h
  · cases h
    exact .str _
  · exact nomatch h

lemma KeepsSorted.optional {check : Check} (hcheck : check.KeepsSorted) :
    KeepsSorted (optional check) := by
  intro v w hv h
  unfold Check.optional at h
  split at h
  · cases h
    exact .null
  · exact hcheck hv h

lemma KeepsSorted.mapM {check : Check} (hcheck : check.KeepsSorted) {xs ys : List Json}
    (hxs : IsSorted (.arr xs)) (h : xs.mapM check = .ok ys) : IsSorted (.arr ys) := by
  cases hxs with
  | arr _ hitems =>
    refine .arr ys fun y hy => ?_
    obtain ⟨x, hx, hxy⟩ := exists_of_mem_mapM h hy
    exact hcheck (hitems x hx) hxy

lemma KeepsSorted.list {check : Check} (hcheck : check.KeepsSorted) :
    KeepsSorted (list check) := by
  intro v w hv h
  unfold Check.list at h
  split at h
  · obtain ⟨ys, hys, rfl⟩ := exists_of_map_eq_ok h
    exact hcheck.mapM hv hys
  · exact nomatch h

lemma keepsSorted_textOrTexts (typeName : String) : KeepsSorted (textOrTexts typeName) := by
  intro v w hv h
  unfold textOrTexts at h
  split at h
  · cases h
    exact .str _
  · split at h
    · next hys =>
      cases h
      exact (keepsSorted_text "").mapM hv hys
    · exact nomatch h
  · exact nomatch h

end Check

/-! ### Records -/

/-- **Slots of sorted values.**  The check keeps values sorted, and the default is sorted. -/
structure Slot.KeepsSorted (slot : Slot Check) : Prop where
  recognise : slot.recognise.KeepsSorted
  default : ∀ v ∈ slot.default, v.IsSorted

namespace Check

variable {slots : List (Slot Check)}

/-- A field of an assembled record is one of the given or the default of its slot. -/
lemma exists_of_assemble (hslots : ∀ slot ∈ slots, slot.KeepsSorted)
    {given : List (String × Json)} (hgiven : ∀ p ∈ given, p.2.IsSorted) {r : Json}
    (h : assemble slots given = .ok r) :
    ∃ fields, r = .obj fields ∧ ∀ p ∈ fields, p.2.IsSorted := by
  obtain ⟨fields, hfields, h⟩ := exists_of_bind_eq_ok h
  cases h
  refine ⟨fields, rfl, fun p hp => ?_⟩
  obtain ⟨slot, hslot, hp⟩ := exists_of_mem_mapM hfields hp
  split at hp
  · next v hfound =>
    cases hp
    obtain ⟨front, behind, rfl, -⟩ := List.lookup_eq_some_iff.mp hfound
    exact hgiven (slot.name, v) (List.mem_append_right _ List.mem_cons_self)
  · next v _ hdefault =>
    cases hp
    exact (hslots slot hslot).default v hdefault
  · exact nomatch hp

/-- A field from an array is what an item is recognised as, or the default of its slot. -/
lemma forall_isSorted_of_slotsFromItems (hslots : ∀ slot ∈ slots, slot.KeepsSorted)
    {items : List Json} (hitems : ∀ x ∈ items, x.IsSorted) {recordName : String} {count index : ℕ}
    {fields : List (String × Json)} {rest : List Json}
    (h : slotsFromItems recordName count index slots items = .ok (fields, rest)) :
    ∀ p ∈ fields, p.2.IsSorted := by
  induction slots generalizing items index fields rest with
  | nil =>
    cases h
    exact List.forall_mem_nil _
  | cons slot slots ih =>
    obtain ⟨hslot, hmore⟩ := List.forall_mem_cons.mp hslots
    unfold slotsFromItems at h
    split at h
    · obtain ⟨hx, hxs⟩ := List.forall_mem_cons.mp hitems
      obtain ⟨v, hv, h⟩ := exists_of_bind_eq_ok h
      obtain ⟨more, hread, h⟩ := exists_of_bind_eq_ok h
      cases h
      exact List.forall_mem_cons.mpr ⟨hslot.recognise hx hv, ih hmore hxs hread⟩
    · next v hdefault =>
      obtain ⟨more, hread, h⟩ := exists_of_bind_eq_ok h
      cases h
      exact List.forall_mem_cons.mpr
        ⟨hslot.default v hdefault, ih hmore (List.forall_mem_nil _) hread⟩
    · exact nomatch h

/-- **The fields of a record are sorted values**, as those are that it is made of. -/
lemma exists_of_record (hslots : ∀ slot ∈ slots, slot.KeepsSorted) {recordName : String}
    {j r : Json} (hj : j.IsSorted) (h : record recordName slots j = .ok r) :
    ∃ fields, r = .obj fields ∧ ∀ p ∈ fields, p.2.IsSorted := by
  unfold record at h
  cases hj with
  | obj fields _ hfields =>
    obtain ⟨given, hgiven, h⟩ := exists_of_bind_eq_ok h
    refine exists_of_assemble hslots (fun p hp => ?_) h
    -- each field that is kept is one of the object, as the slot of its name has checked it
    obtain ⟨⟨key, v⟩, hmem, hp⟩ := exists_of_mem_filterMapM hgiven hp
    dsimp only at hp
    split at hp
    · next slot hslot =>
      obtain ⟨w, hw, hp⟩ := exists_of_map_eq_ok hp
      cases hp
      exact (hslots slot (List.mem_of_find?_eq_some hslot)).recognise (hfields _ hmem) hw
    · exact nomatch hp
  | arr items hitems =>
    obtain ⟨⟨fields, rest⟩, hread, h⟩ := exists_of_bind_eq_ok h
    dsimp only at h
    split at h
    · cases h
      exact ⟨fields, rfl, forall_isSorted_of_slotsFromItems hslots hitems hread⟩
    · exact nomatch h
  | _ => exact nomatch h

end Check

end SheetLint.Json
