import SheetLint.Proofs.Json.Schema.Printed

/-!
# What a schema reads

Whatever a text looks like, a schema reads nothing but regular forms of its kind from it: numbers in
their range, the given names, and records that list their fields in the order of the schema, each
with a value of its own kind or with its default.  This holds of a record that is given as an array,
too, and among fields that are unknown or out of order.

The laws take a reader apart, one for each kind of schema (`Yields`).  Again a record needs that no
two of its fields have the same name: what is read for a name would be kept for all of them.

They are the other direction to the laws on printed values.  Those say that what is written is read,
these that whatever is read has a shape that can be written.  `NamesOnly` is this for the members of
a type: each regular form that is read is the form of a member, and that has a given property.
-/

namespace SheetLint.Json

variable {α : Type}

/-- `a` is read from some text. -/
def Yields (reader : Reader α) (a : α) : Prop := ∃ c c', reader c = .ok (a, c')

/-! ### Scalars -/

lemma not_yields_wrongType {expected : String} {c : Cursor} {a : α × Cursor} :
    Read.wrongType expected c ≠ .ok a := by
  intro h
  unfold Read.wrongType at h
  split at h
  · obtain ⟨_, -, h⟩ := exists_of_bind_eq_ok h
    cases h
  · split at h <;> exact nomatch h

lemma Yields.check {starts : Char → Bool} {check : Check} {expected : String} {v : Json}
    (h : Yields (Read.scalar starts check expected) v) : ∃ j, check j = .ok v := by
  obtain ⟨c, c', h⟩ := h
  unfold Read.scalar at h
  dsimp only at h
  split at h
  · split at h
    · obtain ⟨⟨j, rest⟩, -, h⟩ := exists_of_bind_eq_ok h
      dsimp only at h
      split at h
      · next hcheck =>
        cases h
        exact ⟨j, hcheck⟩
      · exact nomatch h
    · exact absurd h not_yields_wrongType
  · exact absurd h not_yields_wrongType

/-- **Numbers** are in their range. -/
lemma Yields.unsigned {v : Json} (h : Yields Schema.unsigned.reader v) :
    ∃ n ≤ unsignedLimit, v = nat n := by
  obtain ⟨j, hj⟩ := Yields.check h
  unfold Check.unsigned at hj
  split at hj
  · next n =>
    split at hj
    · next hrange =>
      cases hj
      obtain ⟨hnatural, hlimit⟩ := hrange
      lift n to ℕ using hnatural
      exact ⟨n, Int.ofNat_le.mp hlimit, rfl⟩
    · exact nomatch hj
  · exact nomatch hj

lemma Yields.flag {v : Json} (h : Yields Schema.flag.reader v) : ∃ b, v = .bool b := by
  obtain ⟨j, hj⟩ := Yields.check h
  unfold Check.flag at hj
  split at hj
  · cases hj
    exact ⟨_, rfl⟩
  · exact nomatch hj

lemma Yields.text {v : Json} (h : Yields Schema.text.reader v) : ∃ s, v = .str s := by
  obtain ⟨j, hj⟩ := Yields.check h
  unfold Check.text at hj
  split at hj
  · cases hj
    exact ⟨_, rfl⟩
  · exact nomatch hj

lemma Yields.name {names : List String} {expected : String} {v : Json}
    (h : Yields (Read.name names expected) v) : ∃ s ∈ names, v = .str s := by
  obtain ⟨j, hj⟩ := Yields.check h
  split at hj
  · next s =>
    unfold Check.name at hj
    split at hj
    · next hmem =>
      cases hj
      exact ⟨s, List.contains_iff_mem.mp hmem, rfl⟩
    · exact nomatch hj
  · exact nomatch hj

/-- **Names** are among the given ones, written as a string or as an object. -/
lemma Yields.oneOf {names : List String} {v : Json} (h : Yields (Schema.oneOf names).reader v) :
    ∃ s ∈ names, v = .str s := by
  obtain ⟨c, c', h⟩ := h
  change Read.oneOf names c = _ at h
  unfold Read.oneOf at h
  dsimp only at h
  split at h
  · obtain ⟨⟨w, rest⟩, hname, h⟩ := exists_of_bind_eq_ok h
    obtain ⟨_, -, h⟩ := exists_of_bind_eq_ok h
    obtain ⟨_, -, h⟩ := exists_of_bind_eq_ok h
    dsimp only at h
    split at h
    · cases h
      exact Yields.name ⟨_, _, hname⟩
    · exact nomatch h
    · exact nomatch h
  · exact Yields.name ⟨_, _, h⟩
  · exact nomatch h
  · exact nomatch h

/-! ### Optional values and lists -/

lemma Yields.optional {reader : Reader Json} {v : Json} (h : Yields (Read.optional reader) v) :
    v = .null ∨ Yields reader v := by
  obtain ⟨c, c', h⟩ := h
  unfold Read.optional at h
  dsimp only at h
  split at h
  · obtain ⟨rest, -, h⟩ := exists_of_map_eq_ok h
    cases h
    exact Or.inl rfl
  · exact Or.inr ⟨_, _, h⟩

lemma forall_yields_of_items {item : Reader α} {rounds : ℕ} {first : Bool} {c c' : Cursor}
    {xs : List α} (h : items item rounds first c = .ok (xs, c')) : ∀ x ∈ xs, Yields item x := by
  induction rounds generalizing first c xs with
  | zero => exact nomatch h
  | succ rounds ih =>
    unfold items at h
    obtain ⟨⟨start, before⟩, -, h⟩ := exists_of_bind_eq_ok h
    cases start with
    | done =>
      cases h
      exact List.forall_mem_nil _
    | item =>
      obtain ⟨⟨x, behind⟩, hx, h⟩ := exists_of_bind_eq_ok h
      obtain ⟨⟨more, last⟩, hmore, h⟩ := exists_of_bind_eq_ok h
      cases h
      exact List.forall_mem_cons.mpr ⟨⟨_, _, hx⟩, ih hmore⟩

lemma Yields.list {reader : Reader Json} {v : Json} (h : Yields (Read.list reader) v) :
    ∃ vs, v = .arr vs ∧ ∀ w ∈ vs, Yields reader w := by
  obtain ⟨c, c', h⟩ := h
  unfold Read.list at h
  dsimp only at h
  split at h
  · obtain ⟨⟨vs, rest⟩, hitems, h⟩ := exists_of_map_eq_ok h
    cases h
    exact ⟨vs, rfl, forall_yields_of_items hitems⟩
  · exact absurd h not_yields_wrongType

/-! ### Records -/

/-- **A field in its regular form.**  It has the name of the slot, and a value that was read for the
slot or its default. -/
inductive Slot.Holds (slot : Slot (Reader Json)) : String × Json → Prop
  | read {v : Json} (h : Yields slot.recognise v) : slot.Holds (slot.name, v)
  | default {v : Json} (h : slot.default = some v) : slot.Holds (slot.name, v)

lemma Slot.Holds.given {name : String} {reader : Reader Json} {value : String × Json}
    (h : Slot.Holds ⟨name, reader, none⟩ value) : ∃ v, Yields reader v ∧ value = (name, v) := by
  cases h with
  | read h => exact ⟨_, h, rfl⟩
  | default h => exact nomatch h

lemma Slot.Holds.given_or_eq {name : String} {reader : Reader Json} {d : Json}
    {value : String × Json} (h : Slot.Holds ⟨name, reader, some d⟩ value) :
    ∃ v, (Yields reader v ∨ v = d) ∧ value = (name, v) := by
  cases h with
  | read h => exact ⟨_, Or.inl h, rfl⟩
  | default h => exact ⟨d, Or.inr rfl, by cases h; rfl⟩

variable {slots : List (Slot (Reader Json))}

/-- The fields of an array are in the order of the slots. -/
lemma forall₂_holds_of_slotsFromItems {recordName : String} {count index : ℕ} {c c' : Cursor}
    {fields : List (String × Json)}
    (h : Read.slotsFromItems recordName count index slots c = .ok (fields, c')) :
    List.Forall₂ Slot.Holds slots fields := by
  induction slots generalizing index c fields with
  | nil =>
    cases h
    exact .nil
  | cons slot slots ih =>
    unfold Read.slotsFromItems at h
    obtain ⟨⟨start, before⟩, -, h⟩ := exists_of_bind_eq_ok h
    dsimp only at h
    split at h
    · obtain ⟨⟨v, behind⟩, hv, h⟩ := exists_of_bind_eq_ok h
      obtain ⟨⟨more, last⟩, hmore, h⟩ := exists_of_bind_eq_ok h
      cases h
      exact .cons (.read ⟨_, _, hv⟩) (ih hmore)
    · next hdefault =>
      obtain ⟨⟨more, last⟩, hmore, h⟩ := exists_of_bind_eq_ok h
      cases h
      exact .cons (.default hdefault) (ih hmore)
    · exact nomatch h

/-- The value of the field was read for the first slot of its name. -/
def ReadFor (slots : List (Slot (Reader Json))) (field : String × Json) : Prop :=
  ∃ slot, slots.find? (·.name == field.1) = some slot ∧ Yields slot.recognise field.2

/-- The fields of an object are read for their slots, in whatever order they come. -/
lemma forall_readFor_of_slotsFromFields {rounds : ℕ} {first : Bool}
    {given found : List (String × Json)} (hgiven : ∀ p ∈ given, ReadFor slots p) {c c' : Cursor}
    (h : Read.slotsFromFields slots rounds first given c = .ok (found, c')) :
    ∀ p ∈ found, ReadFor slots p := by
  -- Each round either passes over a field or adds one that its slot has read.
  induction rounds generalizing first given c with
  | zero => exact nomatch h
  | succ rounds ih =>
    unfold Read.slotsFromFields at h
    obtain ⟨⟨key, before⟩, -, h⟩ := exists_of_bind_eq_ok h
    cases key with
    | none =>
      cases h
      exact hgiven
    | some key =>
      dsimp only at h
      split at h
      · obtain ⟨_, -, h⟩ := exists_of_bind_eq_ok h
        obtain ⟨_, -, h⟩ := exists_of_bind_eq_ok h
        exact ih hgiven h
      · next slot hslot =>
        split at h
        · exact nomatch h
        · obtain ⟨_, -, h⟩ := exists_of_bind_eq_ok h
          obtain ⟨⟨v, behind⟩, hv, h⟩ := exists_of_bind_eq_ok h
          exact ih (List.forall_mem_cons.mpr ⟨⟨slot, hslot, _, _, hv⟩, hgiven⟩) h

/-- What was found, and the defaults besides, in the order of the slots. -/
lemma exists_of_assemble_eq_ok {given : List (String × Json)}
    (hgiven : ∀ p ∈ given, ReadFor slots p)
    (hfirst : ∀ slot ∈ slots, slots.find? (·.name == slot.name) = some slot) {v : Json}
    (h : assemble slots given = .ok v) :
    ∃ values, v = .obj values ∧ List.Forall₂ Slot.Holds slots values := by
  obtain ⟨values, hvalues, h⟩ := exists_of_bind_eq_ok h
  cases h
  refine ⟨values, rfl, ?_⟩
  refine ((List.forall₂_and_left slots values).mpr ⟨hfirst, forall₂_of_mapM hvalues⟩).imp ?_
  rintro slot value ⟨hslot, hvalue⟩
  split at hvalue
  · next w hfound =>
    cases hvalue
    -- what was found for the name was read for the first slot of that name, which is this one
    obtain ⟨front, behind, rfl, -⟩ := List.lookup_eq_some_iff.mp hfound
    obtain ⟨other, hother, hread⟩ :=
      hgiven (slot.name, w) (List.mem_append_right _ List.mem_cons_self)
    obtain rfl : slot = other := Option.some.inj (hslot.symm.trans hother)
    exact .read hread
  · next w _ hdefault =>
    cases hvalue
    exact .default hdefault
  · exact nomatch hvalue

/-- **Records** have all their fields. -/
theorem Yields.record (hnodup : (slots.map Slot.name).Nodup) {recordName : String} {v : Json}
    (h : Yields (Read.record recordName slots) v) :
    ∃ values, v = .obj values ∧ List.Forall₂ Slot.Holds slots values := by
  obtain ⟨c, c', h⟩ := h
  unfold Read.record at h
  dsimp only at h
  split at h
  · obtain ⟨⟨values, rest⟩, hitems, h⟩ := exists_of_bind_eq_ok h
    obtain ⟨last, -, h⟩ := exists_of_bind_eq_ok h
    cases h
    exact ⟨values, rfl, forall₂_holds_of_slotsFromItems hitems⟩
  · obtain ⟨⟨given, rest⟩, hfields, h⟩ := exists_of_bind_eq_ok h
    dsimp only at h
    split at h
    · next hassembled =>
      cases h
      exact exists_of_assemble_eq_ok
        (forall_readFor_of_slotsFromFields (List.forall_mem_nil _) hfields)
        (find?_slot hnodup) hassembled
    · exact nomatch h
  · exact absurd h not_yields_wrongType

/-! ### Shaped types -/

/-- **Naming.**  Every regular form that is read names a member, and one with the property. -/
def NamesOnly (α : Type) [Shaped α] (P : α → Prop) : Prop :=
  ∀ v, Yields (Shaped.schema α).reader v → ∃ a, Shaped.ofRegular? v = some a ∧ P a

lemma namesOnly_string : NamesOnly String fun _ => True := by
  intro v h
  obtain ⟨s, rfl⟩ := h.text
  exact ⟨s, rfl, trivial⟩

/-- **Optional members.** -/
lemma NamesOnly.option [Shaped α] {P : α → Prop} (h : NamesOnly α P) :
    NamesOnly (Option α) fun a => ∀ b ∈ a, P b := by
  intro v hv
  obtain rfl | hv := Yields.optional hv
  · exact ⟨none, rfl, nofun⟩
  · obtain ⟨a, ha, hP⟩ := h v hv
    cases v with
    | null => exact ⟨none, rfl, nofun⟩
    | _ => exact ⟨some a, congrArg (Option.map some) ha, fun _ hb => Option.some.inj hb ▸ hP⟩

/-- **Lists of members.** -/
lemma NamesOnly.list [Shaped α] {P : α → Prop} (h : NamesOnly α P) :
    NamesOnly (List α) fun as => ∀ a ∈ as, P a := by
  intro v hv
  obtain ⟨vs, rfl, hvs⟩ := Yields.list hv
  show ∃ as, vs.mapM Shaped.ofRegular? = some as ∧ _
  clear hv
  induction vs with
  | nil => exact ⟨[], rfl, List.forall_mem_nil _⟩
  | cons w vs ih =>
    obtain ⟨hw, hmore⟩ := List.forall_mem_cons.mp hvs
    obtain ⟨a, ha, hP⟩ := h w hw
    obtain ⟨as, has, hall⟩ := ih hmore
    exact ⟨a :: as, by rw [List.mapM_cons, ha, has]; rfl, List.forall_mem_cons.mpr ⟨hP, hall⟩⟩

/-- **What is read has the property.** -/
theorem NamesOnly.of_read [Shaped α] {P : α → Prop} (h : NamesOnly α P) {text : String} {a : α}
    (hread : read α text = .ok a) : P a := by
  obtain ⟨v, hv, hread⟩ := exists_of_bind_eq_ok hread
  obtain ⟨⟨_, rest⟩, hreader, hv⟩ := exists_of_bind_eq_ok hv
  obtain ⟨_, -, hv⟩ := exists_of_bind_eq_ok hv
  cases hv
  obtain ⟨b, hb, hP⟩ := h v ⟨_, _, hreader⟩
  unfold ofRegular at hread
  simp only [hb] at hread
  cases hread
  exact hP

end SheetLint.Json
