import SheetLint.Json.Shaped
import SheetLint.Proofs.Json.Loose.RoundTrip
import SheetLint.Proofs.Json.Printing

/-!
# Printed values under a schema

A schema reads the compact form of a value from the front of a text, and leaves what follows it
(`Reads`), as long as no number goes on into that.  The laws here give a reader that is put together
of others what its parts have: numbers, flags, texts, optional values, lists and records.

Only one of them asks for more than its parts: a record is read in its regular form from an object
that lists its fields in the order of the schema, as far as they are not at their defaults
(`Fills`), provided that no two fields have the same name.

The fields of an object are gathered one by one, the last one in front.  So what has been gathered
is told by its lookups (`slotsFromFields_compactFields`), and then put in the order of the slots,
with the defaults where nothing was found (`Fills.assemble_eq`).

Loops run for as many rounds as there are characters left, which is more than there are items or
fields.  The laws for loops say how many rounds are enough, and the laws for whole values that there
are as many.

`ReadsAs` says that a member of a type is read, so that `read_print` need not speak of schemas.
-/

namespace SheetLint.Json

open Number (IsOver isOver_of_ends)

variable {α : Type}

/-- **Reading from the front of a text.**  `a` is read from `text`, wherever it stands and whatever
follows it that no number goes on into. -/
def Reads (reader : Reader α) (text : List Char) (a : α) : Prop :=
  ∀ pos rest, IsOver rest → ∃ pos', reader ⟨pos, text ++ rest⟩ = .ok (a, ⟨pos', rest⟩)

/-! ### The front of a value -/

/-- The character is none that is skipped in front of a value, and none that can stand there instead
of it. -/
def IsFront (c : Char) : Prop := c ∉ [' ', '\t', '\n', '\r', ',', ']', '\x7d']

instance (c : Char) : Decidable (IsFront c) :=
  inferInstanceAs (Decidable (c ∉ [' ', '\t', '\n', '\r', ',', ']', '\x7d']))

lemma skipBlanks_cons {c : Char} (h : c ∉ [' ', '\t', '\n', '\r']) (pos : Pos)
    (rest : List Char) : Cursor.skipBlanks ⟨pos, c :: rest⟩ = ⟨pos, c :: rest⟩ := by
  have hblank : ¬ (c = ' ' ∨ c = '\t' ∨ c = '\n' ∨ c = '\r') := by simpa using h
  unfold Cursor.skipBlanks Cursor.skipBlanks.go
  rw [if_neg hblank]

lemma IsFront.not_blank {c : Char} (h : IsFront c) : c ∉ [' ', '\t', '\n', '\r'] :=
  fun hmem => h (List.mem_append_left [',', ']', '\x7d'] hmem)

lemma IsFront.ne_bracket {c : Char} (h : IsFront c) : c ≠ ']' := by
  rintro rfl
  exact h (by decide)

lemma front_mem (j : Json) : front j ∈ ['n', 't', 'f', '0', '\x22', '[', '\x7b'] := by
  rcases j with _ | (_ | _) | _ | _ | _ | _ | _ <;> simp [front]

lemma exists_compact_eq_cons (j : Json) : ∃ c more, compact j = c :: more ∧ IsFront c := by
  obtain ⟨c, more, hj, hkind⟩ := compact_front j
  have hfront := front_mem j
  rw [← hkind] at hfront
  refine ⟨c, more, hj, fun hmem => ?_⟩
  simp only [List.mem_cons, List.not_mem_nil, or_false] at hmem
  rcases hmem with rfl | rfl | rfl | rfl | rfl | rfl | rfl <;> exact absurd hfront (by decide)

/-! ### Scalars -/

lemma reads_scalar {starts : Char → Bool} {check : Check} {expected : String} {j v : Json}
    {c : Char} {more : List Char} (hfront : IsFront c) (hstarts : starts c = true)
    (hscalar : ∀ pos rest, IsOver rest →
      ∃ pos', scalar? ⟨pos, c :: more ++ rest⟩ = some (.ok (j, ⟨pos', rest⟩)))
    (hcheck : check j = .ok v) : Reads (Read.scalar starts check expected) (c :: more) v := by
  intro pos rest hover
  obtain ⟨pos', htaken⟩ := hscalar pos rest hover
  refine ⟨pos', ?_⟩
  unfold Read.scalar
  rw [List.cons_append] at htaken ⊢
  rw [skipBlanks_cons hfront.not_blank]
  simp only [List.head?_cons, Option.any_some, hstarts, if_true, htaken, hcheck, bind, Except.bind]

lemma scalar?_isDigit {c : Char} (hc : c.isDigit = true) (pos : Pos) (more : List Char) :
    scalar? ⟨pos, c :: more⟩ = some (Number.unsigned false ⟨pos, c :: more⟩) := by
  have hne {x : Char} (hx : x.isDigit = false) : c ≠ x := by
    rintro rfl
    rw [hc] at hx
    exact nomatch hx
  have hread : Number.read ⟨pos, c :: more⟩ = Number.unsigned false ⟨pos, c :: more⟩ := by
    unfold Number.read
    split
    · next h => exact absurd (List.cons.inj h).1 (hne (by decide))
    · rfl
  unfold scalar?
  split
  · next h => exact absurd (List.cons.inj h).1 (hne (by decide))
  · next h => exact absurd (List.cons.inj h).1 (hne (by decide))
  · next h => exact absurd (List.cons.inj h).1 (hne (by decide))
  · next h => exact absurd (List.cons.inj h).1 (hne (by decide))
  · next h => rw [← (List.cons.inj h).1, if_pos (Or.inr hc), hread]
  · next h => exact nomatch h

lemma scalar?_integer {n : ℤ} (hlow : -2 ^ 63 ≤ n) (hhigh : n < 2 ^ 64) (pos : Pos)
    {rest : List Char} (hover : IsOver rest) :
    ∃ pos', scalar? ⟨pos, Decimal.integer n ++ rest⟩ = some (.ok (.int n, ⟨pos', rest⟩)) := by
  cases n with
  | ofNat k =>
    have hk : k ≤ Number.limit := by
      rw [Int.ofNat_eq_natCast] at hhigh
      rw [Number.limit]
      omega
    obtain ⟨c, digits, hnatural, hc⟩ := Decimal.startsWithDigit_natural k
    obtain ⟨pos', hread⟩ := Number.unsigned_natural hk false pos hover
    refine ⟨pos', ?_⟩
    rw [Decimal.integer]
    rw [hnatural, List.cons_append] at hread ⊢
    rw [scalar?_isDigit hc, hread]
    rfl
  | negSucc k =>
    have hk : k + 1 ≤ 2 ^ 63 := by
      rw [Int.negSucc_eq] at hlow
      omega
    obtain ⟨pos', hread⟩ :=
      Number.unsigned_natural (hk.trans (by decide)) true (pos.behind '-') hover
    refine ⟨pos', ?_⟩
    have htaken : scalar? ⟨pos, Decimal.integer (.negSucc k) ++ rest⟩ =
        some (Number.unsigned true ⟨pos.behind '-', Decimal.natural (k + 1) ++ rest⟩) := rfl
    rw [htaken, hread, Number.integer_true (Nat.succ_ne_zero k) hk, Int.negSucc_eq,
      Int.natCast_succ]

/-- **A number.** -/
lemma reads_unsigned {n : ℕ} (hn : n ≤ unsignedLimit) :
    Reads Schema.unsigned.reader (compact (nat n)) (nat n) := by
  obtain ⟨c, digits, hnatural, hdigit⟩ := Decimal.startsWithDigit_natural n
  have hcompact : compact (nat n) = c :: digits := hnatural
  have hrange : (0 : ℤ) ≤ n ∧ (n : ℤ) ≤ unsignedLimit := by omega
  have hbound : (n : ℤ) < 2 ^ 64 := lt_of_le_of_lt hrange.2 (by decide)
  rw [hcompact]
  refine reads_scalar ?_ (by simp [Read.startsNumber, hdigit]) (j := nat n) ?_ (if_pos hrange)
  · intro hmem
    simp only [List.mem_cons, List.not_mem_nil, or_false] at hmem
    rcases hmem with rfl | rfl | rfl | rfl | rfl | rfl | rfl <;> exact absurd hdigit (by decide)
  · intro pos rest hover
    rw [← hcompact]
    exact scalar?_integer (by omega) hbound pos hover

/-- **A boolean.** -/
lemma reads_flag (b : Bool) : Reads Schema.flag.reader (compact (.bool b)) (.bool b) := by
  cases b with
  | false => exact reads_scalar (c := 'f') (by decide) rfl (fun pos rest _ => ⟨_, rfl⟩) rfl
  | true => exact reads_scalar (c := 't') (by decide) rfl (fun pos rest _ => ⟨_, rfl⟩) rfl

lemma scalar?_quote (s : String) (pos : Pos) (rest : List Char) :
    ∃ pos', scalar? ⟨pos, quote s.toList ++ rest⟩ = some (.ok (.str s, ⟨pos', rest⟩)) := by
  obtain ⟨pos', hread⟩ := readFrom_quote s.toList [] (pos.behind '\x22') rest
  refine ⟨pos', ?_⟩
  have hrest : quote s.toList ++ rest =
      '\x22' :: (s.toList.flatMap escape ++ '\x22' :: rest) := by
    simp [quote]
  rw [hrest]
  unfold scalar?
  simp only [Cursor.next, Text.read, hread]
  simp [Except.map, bind, Except.bind]

/-- **A string**, if the check accepts it. -/
lemma reads_str {check : Check} {expected : String} {s : String} {v : Json}
    (hcheck : check (.str s) = .ok v) :
    Reads (Read.scalar Read.startsText check expected) (compact (.str s)) v := by
  have hquote : compact (.str s) = '\x22' :: (s.toList.flatMap escape ++ ['\x22']) := rfl
  rw [hquote]
  exact reads_scalar (by decide) rfl (fun pos rest _ => scalar?_quote s pos rest) hcheck

lemma reads_text (s : String) : Reads Schema.text.reader (compact (.str s)) (.str s) :=
  reads_str rfl

/-- **A name.** -/
lemma reads_oneOf {names : List String} {s : String} (h : s ∈ names) :
    Reads (Schema.oneOf names).reader (compact (.str s)) (.str s) := by
  intro pos rest hover
  have hname : Reads (Read.name names "variant identifier") (compact (.str s)) (.str s) :=
    reads_str (by simp [Check.name, h])
  obtain ⟨pos', hread⟩ := hname pos rest hover
  refine ⟨pos', ?_⟩
  have hquote : compact (.str s) ++ rest =
      '\x22' :: (s.toList.flatMap escape ++ ['\x22'] ++ rest) := rfl
  show Read.oneOf names _ = _
  unfold Read.oneOf
  rw [hquote] at hread ⊢
  rw [skipBlanks_cons (by decide)]
  exact hread

/-! ### Optional values -/

/-- **A value that is there.** -/
lemma Reads.optional {reader : Reader Json} {j v : Json} (h : Reads reader (compact j) v)
    (hnull : front j ≠ 'n') : Reads (Read.optional reader) (compact j) v := by
  intro pos rest hover
  obtain ⟨pos', hread⟩ := h pos rest hover
  refine ⟨pos', ?_⟩
  obtain ⟨c, more, hj, hfront⟩ := exists_compact_eq_cons j
  have hc : c ≠ 'n' := by
    rintro rfl
    obtain ⟨c, more', hj', hkind⟩ := compact_front j
    rw [hj] at hj'
    rw [← (List.cons.inj hj').1] at hkind
    exact hnull hkind.symm
  unfold Read.optional
  rw [hj, List.cons_append] at hread ⊢
  rw [skipBlanks_cons hfront.not_blank]
  dsimp only
  split
  · next h => exact absurd (List.cons.inj h).1 hc
  · exact hread

/-! ### Lists -/

lemma nextItem_comma {c : Char} (hc : c ≠ ']') {pos pos' : Pos} {text more : List Char}
    (hskip : Cursor.skipBlanks ⟨pos.behind ',', text⟩ = ⟨pos', c :: more⟩) :
    nextItem false ⟨pos, ',' :: text⟩ = .ok (.item, ⟨pos', c :: more⟩) := by
  have hcomma : Cursor.skipBlanks ⟨pos, ',' :: text⟩ = ⟨pos, ',' :: text⟩ := rfl
  unfold nextItem
  rw [hcomma]
  simp only [Cursor.next, hskip, hc]
  rfl

lemma nextItem_first {c : Char} (hc : c ≠ ']') {pos pos' : Pos} {text more : List Char}
    (hskip : Cursor.skipBlanks ⟨pos, text⟩ = ⟨pos', c :: more⟩) :
    nextItem true ⟨pos, text⟩ = .ok (.item, ⟨pos', c :: more⟩) := by
  unfold nextItem
  rw [hskip]
  simp only [hc]
  rfl

lemma items_succ {item : Reader α} {a : α} {first : Bool} {c c' c'' : Cursor}
    (hnext : nextItem first c = .ok (.item, c')) (hread : item c' = .ok (a, c'')) (rounds : ℕ) :
    items item (rounds + 1) first c =
      (items item rounds false c'').map fun p => (a :: p.1, p.2) := by
  rw [items]
  simp only [hnext, hread, bind, Except.bind]
  cases items item rounds false c'' <;> rfl

lemma items_compactItems {item : Reader α} {xs : List Json} {ys : List α}
    (h : List.Forall₂ (fun x y => Reads item (compact x) y) xs ys) {rounds : ℕ}
    (hrounds : xs.length < rounds) (pos : Pos) (rest : List Char) :
    ∃ pos', items item rounds false ⟨pos, compactItems xs ++ rest⟩ =
      .ok (ys, ⟨pos', rest⟩) := by
  induction h generalizing rounds pos with
  | nil =>
    obtain ⟨rounds, rfl⟩ := Nat.exists_eq_add_of_le' hrounds
    exact ⟨_, rfl⟩
  | @cons x y xs ys hx _ ih =>
    obtain ⟨rounds, rfl⟩ := Nat.exists_eq_add_of_le' (Nat.one_le_of_lt hrounds)
    rw [List.length_cons, Nat.add_lt_add_iff_right] at hrounds
    obtain ⟨c, more, hc, hfront⟩ := exists_compact_eq_cons x
    have hnext : nextItem false ⟨pos, compactItems (x :: xs) ++ rest⟩ =
        .ok (.item, ⟨pos.behind ',', compact x ++ (compactItems xs ++ rest)⟩) := by
      rw [compactItems, hc]
      simp only [List.cons_append, List.append_assoc]
      exact nextItem_comma hfront.ne_bracket (skipBlanks_cons hfront.not_blank _ _)
    obtain ⟨pos', hread⟩ := hx (pos.behind ',') _ (isOver_of_ends (Loose.ends_compactItems xs rest))
    obtain ⟨pos'', hitems⟩ := ih hrounds pos'
    exact ⟨pos'', by rw [items_succ hnext hread, hitems]; rfl⟩

lemma length_lt_length_compactItems (xs : List Json) : xs.length < (compactItems xs).length := by
  induction xs with
  | nil => exact Nat.one_pos
  | cons x xs ih =>
    simp only [compactItems, List.length_cons, List.length_append]
    omega

/-- **A list.** -/
lemma Reads.list {item : Reader Json} {xs ys : List Json}
    (h : List.Forall₂ (fun x y => Reads item (compact x) y) xs ys) :
    Reads (Read.list item) (compact (.arr xs)) (.arr ys) := by
  intro pos rest hover
  cases h with
  | nil => exact ⟨_, rfl⟩
  | @cons x y xs ys hx hxs =>
    obtain ⟨c, more, hc, hfront⟩ := exists_compact_eq_cons x
    have hnext : nextItem true ⟨pos.behind '[', compact x ++ (compactItems xs ++ rest)⟩ =
        .ok (.item, ⟨pos.behind '[', compact x ++ (compactItems xs ++ rest)⟩) := by
      rw [hc]
      exact nextItem_first hfront.ne_bracket (skipBlanks_cons hfront.not_blank _ _)
    have hlength : xs.length < (compact x ++ (compactItems xs ++ rest)).length := by
      have := length_lt_length_compactItems xs
      simp only [List.length_append]
      omega
    obtain ⟨pos', hread⟩ := hx (pos.behind '[') _ (isOver_of_ends (Loose.ends_compactItems xs rest))
    obtain ⟨pos'', hitems⟩ := items_compactItems hxs hlength pos' rest
    refine ⟨pos'', ?_⟩
    have htext : compact (.arr (x :: xs)) ++ rest =
        '[' :: (compact x ++ (compactItems xs ++ rest)) := by
      rw [compact, List.cons_append, List.append_assoc]
    unfold Read.list
    rw [htext, skipBlanks_cons (by decide)]
    simp only [Cursor.next, items_succ hnext hread, hitems]
    rfl

/-! ### Records -/

lemma key_quote (k : String) (pos : Pos) (rest : List Char) :
    ∃ pos', nextKey.key ⟨pos, quote k.toList ++ rest⟩ = .ok (some k, ⟨pos', rest⟩) := by
  obtain ⟨pos', hread⟩ := readFrom_quote k.toList [] (pos.behind '\x22') rest
  refine ⟨pos', ?_⟩
  have hrest : quote k.toList ++ rest =
      '\x22' :: (k.toList.flatMap escape ++ '\x22' :: rest) := by
    simp [quote]
  rw [hrest]
  unfold nextKey.key
  simp only [Cursor.next, Text.read, hread]
  simp [Except.map, bind, Except.bind]

/-- **The next name**, where the fields of an object follow.  In front of the first one there is no
comma. -/
lemma nextKey_compactFields {first : Bool} {c : Cursor} {key : String} {j : Json}
    {fields : List (String × Json)} {rest : List Char}
    (hc : (if first then ',' :: c.rest else c.rest) = compactFields ((key, j) :: fields) ++ rest) :
    ∃ pos', nextKey first c =
      .ok (some key, ⟨pos', ':' :: (compact j ++ (compactFields fields ++ rest))⟩) := by
  have htext : compactFields ((key, j) :: fields) ++ rest =
      ',' :: (quote key.toList ++ ':' :: (compact j ++ (compactFields fields ++ rest))) := by
    simp only [compactFields, List.cons_append, List.append_assoc]
  obtain ⟨pos, text⟩ := c
  rw [htext] at hc
  cases first with
  | true =>
    obtain rfl : text = _ := (List.cons.inj hc).2
    exact key_quote key pos _
  | false =>
    obtain rfl : text = _ := hc
    exact key_quote key (pos.behind ',') _

variable {slots : List (Slot (Reader Json))}

/-- **One field.** -/
lemma Reads.slotsFromFields_succ {slot : Slot (Reader Json)} {text : List Char} {v : Json}
    (h : Reads slot.recognise text v) {key : String}
    (hslot : slots.find? (·.name == key) = some slot) {given : List (String × Json)}
    (hnew : given.lookup key = none) {first : Bool} {c : Cursor} {pos : Pos} {rest : List Char}
    (hover : IsOver rest) (hkey : nextKey first c = .ok (some key, ⟨pos, ':' :: (text ++ rest)⟩))
    (rounds : ℕ) :
    ∃ pos', Read.slotsFromFields slots (rounds + 1) first given c =
      Read.slotsFromFields slots rounds false ((key, v) :: given) ⟨pos', rest⟩ := by
  obtain ⟨pos', hread⟩ := h (pos.behind ':') rest hover
  refine ⟨pos', ?_⟩
  have hcolon : colon ⟨pos, ':' :: (text ++ rest)⟩ = .ok ⟨pos.behind ':', text ++ rest⟩ := rfl
  rw [Read.slotsFromFields]
  simp only [hkey, hslot, hnew, Option.isSome_none, hcolon, hread, bind, Except.bind]
  rfl

lemma lookup_eq_none_of_notMem {key : String} {values : List (String × Json)}
    (h : key ∉ values.map Prod.fst) : values.lookup key = none := by
  refine List.lookup_eq_none_iff.mpr fun p hp => ?_
  have hmem : p.1 ∈ values.map Prod.fst := List.mem_map_of_mem hp
  exact bne_iff_ne.mpr fun heq => h (heq ▸ hmem)

/-- The field of an object is read as the field of a record. -/
def ReadsField (slots : List (Slot (Reader Json))) (field value : String × Json) : Prop :=
  field.1 = value.1 ∧ ∃ slot, slots.find? (·.name == field.1) = some slot ∧
    Reads slot.recognise (compact field.2) value.2

/-- **The fields of an object.**  What is found is told by its lookups, since it is gathered back to
front. -/
lemma slotsFromFields_compactFields {fields values : List (String × Json)}
    (h : List.Forall₂ (ReadsField slots) fields values) (hnodup : (values.map Prod.fst).Nodup)
    {given : List (String × Json)} (hnew : ∀ p ∈ values, given.lookup p.1 = none) {rounds : ℕ}
    (hrounds : fields.length < rounds) {first : Bool} {c : Cursor} {rest : List Char}
    (hc : (if first then ',' :: c.rest else c.rest) = compactFields fields ++ rest) :
    ∃ found pos', Read.slotsFromFields slots rounds first given c =
        .ok (found, ⟨pos', '\x7d' :: rest⟩) ∧
      ∀ key, found.lookup key = (values.lookup key).or (given.lookup key) := by
  induction h generalizing given rounds first c with
  | nil =>
    obtain ⟨rounds, rfl⟩ := Nat.exists_eq_add_of_le' hrounds
    obtain ⟨pos, text⟩ := c
    cases first with
    | true => exact absurd (List.cons.inj hc).1 (by decide)
    | false =>
      obtain rfl : text = '\x7d' :: rest := hc
      exact ⟨given, pos, rfl, fun _ => rfl⟩
  | @cons field value fields values hfield _ ih =>
    obtain ⟨rounds, rfl⟩ := Nat.exists_eq_add_of_le' (Nat.one_le_of_lt hrounds)
    rw [List.length_cons, Nat.add_lt_add_iff_right] at hrounds
    rw [List.map_cons, List.nodup_cons] at hnodup
    obtain ⟨hfirst, hmore⟩ := List.forall_mem_cons.mp hnew
    obtain ⟨key, j⟩ := field
    obtain ⟨_, v⟩ := value
    obtain ⟨rfl, slot, hslot, hreads⟩ := hfield
    obtain ⟨pos', hkey⟩ := nextKey_compactFields hc
    obtain ⟨pos'', hstep⟩ := hreads.slotsFromFields_succ hslot hfirst
      (isOver_of_ends (Loose.ends_compactFields fields rest)) hkey rounds
    -- the name of this field is none of those that follow
    have hlater : ∀ p ∈ values, ((key, v) :: given).lookup p.1 = none := by
      intro p hp
      have hmem : p.1 ∈ values.map Prod.fst := List.mem_map_of_mem hp
      have hne : p.1 ≠ key := fun heq => hnodup.1 (heq ▸ hmem)
      rw [List.lookup_cons, beq_eq_false_iff_ne.mpr hne]
      exact hmore p hp
    obtain ⟨found, last, hfound, hlookup⟩ :=
      @ih hnodup.2 _ hlater _ hrounds false ⟨pos'', compactFields fields ++ rest⟩ rfl
    refine ⟨found, last, hstep.trans hfound, fun other => ?_⟩
    rw [hlookup other, List.lookup_cons, List.lookup_cons]
    by_cases hother : other = key
    · subst hother
      simp [lookup_eq_none_of_notMem hnodup.1]
    · rw [beq_eq_false_iff_ne.mpr hother]

/-- **Filling a record.**  The fields of an object fill the slots of a record, in their order.
`values` are what the fields are read as, and `regular` has the defaults besides. -/
inductive Fills : List (Slot (Reader Json)) → List (String × Json) → List (String × Json) →
    List (String × Json) → Prop
  | nil : Fills [] [] [] []
  | given {slot : Slot (Reader Json)} {slots : List (Slot (Reader Json))}
    {fields values regular : List (String × Json)} {j v : Json}
    (h : Reads slot.recognise (compact j) v) (hmore : Fills slots fields values regular) :
    Fills (slot :: slots) ((slot.name, j) :: fields) ((slot.name, v) :: values)
      ((slot.name, v) :: regular)
  | default {slot : Slot (Reader Json)} {slots : List (Slot (Reader Json))}
    {fields values regular : List (String × Json)} {v : Json} (h : slot.default = some v)
    (hmore : Fills slots fields values regular) :
    Fills (slot :: slots) fields values ((slot.name, v) :: regular)

namespace Fills

variable {fields values regular : List (String × Json)}

lemma names_sublist (h : Fills slots fields values regular) :
    (values.map Prod.fst).Sublist (slots.map Slot.name) := by
  induction h with
  | nil => exact .slnil
  | given _ _ ih => exact ih.cons_cons _
  | default _ _ ih => exact ih.cons _

lemma readsField (h : Fills slots fields values regular) {all : List (Slot (Reader Json))}
    (hall : ∀ slot ∈ slots, all.find? (·.name == slot.name) = some slot) :
    List.Forall₂ (ReadsField all) fields values := by
  induction h with
  | nil => exact .nil
  | @given slot slots _ _ _ _ _ hreads _ ih =>
    obtain ⟨hslot, hmore⟩ := List.forall_mem_cons.mp hall
    exact .cons ⟨rfl, slot, hslot, hreads⟩ (ih hmore)
  | default _ _ ih => exact ih (List.forall_mem_cons.mp hall).2

/-- What has been found is put together in the regular form. -/
lemma assemble_eq (h : Fills slots fields values regular) (hnodup : (slots.map Slot.name).Nodup)
    {found : List (String × Json)}
    (hfound : ∀ slot ∈ slots, found.lookup slot.name = values.lookup slot.name) :
    assemble slots found = .ok (.obj regular) := by
  refine congrArg (fun filled => filled >>= fun fields => Except.ok (Json.obj fields))
    (mapM_eq_ok_iff.mpr ?_ : _ = Except.ok regular)
  induction h with
  | nil => exact .nil
  | @given slot slots fields values regular j v _ hmore ih =>
    rw [List.map_cons, List.nodup_cons] at hnodup
    obtain ⟨hslot, hothers⟩ := List.forall_mem_cons.mp hfound
    rw [List.lookup_cons_self] at hslot
    refine .cons (by rw [hslot]) (ih hnodup.2 fun other hother => ?_)
    have hmem : other.name ∈ slots.map Slot.name := List.mem_map_of_mem hother
    have hne : other.name ≠ slot.name := fun heq => hnodup.1 (heq ▸ hmem)
    rw [hothers other hother, List.lookup_cons, beq_eq_false_iff_ne.mpr hne]
  | @default slot slots fields values regular v hdefault hmore ih =>
    rw [List.map_cons, List.nodup_cons] at hnodup
    obtain ⟨hslot, hothers⟩ := List.forall_mem_cons.mp hfound
    -- a field at its default is not listed, and no other one has its name
    have habsent : slot.name ∉ values.map Prod.fst :=
      fun hmem => hnodup.1 (hmore.names_sublist.subset hmem)
    rw [lookup_eq_none_of_notMem habsent] at hslot
    exact .cons (by rw [hslot, hdefault]) (ih hnodup.2 hothers)

end Fills

lemma find?_slot (hnodup : (slots.map Slot.name).Nodup) :
    ∀ slot ∈ slots, slots.find? (·.name == slot.name) = some slot := by
  induction slots with
  | nil => exact List.forall_mem_nil _
  | cons first slots ih =>
    rw [List.map_cons, List.nodup_cons] at hnodup
    refine List.forall_mem_cons.mpr ⟨by simp, fun slot hslot => ?_⟩
    have hmem : slot.name ∈ slots.map Slot.name := List.mem_map_of_mem hslot
    have hne : first.name ≠ slot.name := fun heq => hnodup.1 (heq ▸ hmem)
    rw [List.find?_cons_of_neg (by simpa using hne), ih hnodup.2 slot hslot]

lemma length_lt_length_compactFields (fields : List (String × Json)) :
    fields.length < (compactFields fields).length := by
  induction fields with
  | nil => exact Nat.one_pos
  | cons p fields ih =>
    simp only [compactFields, List.length_cons, List.length_append]
    omega

/-- **A record.** -/
theorem Fills.reads {fields values regular : List (String × Json)}
    (h : Fills slots fields values regular) (hnodup : (slots.map Slot.name).Nodup)
    (recordName : String) :
    Reads (Read.record recordName slots) (compact (.obj fields)) (.obj regular) := by
  intro pos rest _
  have hread := h.readsField (find?_slot hnodup)
  cases fields with
  | nil =>
    obtain rfl : values = [] := List.forall₂_nil_left_iff.mp hread
    have hfilled : assemble slots [] = .ok (.obj regular) := h.assemble_eq hnodup fun _ _ => rfl
    refine ⟨(pos.behind '\x7b').behind '\x7d', ?_⟩
    have htext : compact (.obj []) ++ rest = '\x7b' :: '\x7d' :: rest := rfl
    have hfound : Read.slotsFromFields slots (('\x7d' :: rest).length + 1) true []
        ⟨pos.behind '\x7b', '\x7d' :: rest⟩ =
          .ok ([], ⟨pos.behind '\x7b', '\x7d' :: rest⟩) := rfl
    unfold Read.record
    rw [htext, skipBlanks_cons (by decide)]
    simp only [Cursor.next, hfound, hfilled, bind, Except.bind]
  | cons p fields =>
    obtain ⟨key, j⟩ := p
    let text := quote key.toList ++ ':' :: (compact j ++ (compactFields fields ++ rest))
    have htext : compact (.obj ((key, j) :: fields)) ++ rest = '\x7b' :: text := by
      simp only [compact, List.cons_append, List.append_assoc, text]
    have hcomma : ',' :: text = compactFields ((key, j) :: fields) ++ rest := by
      simp only [compactFields, List.cons_append, List.append_assoc, text]
    have hrounds : ((key, j) :: fields).length < text.length + 1 := by
      have hlength := congrArg List.length hcomma
      have hfields := length_lt_length_compactFields ((key, j) :: fields)
      rw [List.length_append, List.length_cons] at hlength
      omega
    have hvalues : (values.map Prod.fst).Nodup := h.names_sublist.nodup hnodup
    obtain ⟨found, last, hfound, hlookup⟩ :=
      @slotsFromFields_compactFields _ _ _ hread hvalues [] (fun _ _ => rfl) _ hrounds true
        ⟨pos.behind '\x7b', text⟩ rest hcomma
    have hfilled : assemble slots found = .ok (.obj regular) := by
      refine h.assemble_eq hnodup fun slot _ => ?_
      rw [hlookup, List.lookup_nil, Option.or_none]
    refine ⟨last.behind '\x7d', ?_⟩
    unfold Read.record
    rw [htext, skipBlanks_cons (by decide)]
    simp only [Cursor.next, hfound, hfilled, bind, Except.bind]

/-! ### Shaped types -/

/-- **Reading back.**  The member `a` is read from the compact form of the value. -/
def ReadsAs (α : Type) [Shaped α] (j : Json) (a : α) : Prop :=
  ∃ v, Reads (Shaped.schema α).reader (compact j) v ∧ Shaped.ofRegular? v = some a

/-- **Lists of members.** -/
lemma readsAs_list [Shaped α] {β : Type} {encode : β → Json} {bs : List β} {as : List α}
    (h : List.Forall₂ (fun b a => ReadsAs α (encode b) a) bs as) :
    ReadsAs (List α) (list encode bs) as := by
  obtain ⟨vs, hvs, hregular⟩ : ∃ vs,
      List.Forall₂ (fun x v => Reads (Shaped.schema α).reader (compact x) v) (bs.map encode) vs ∧
        vs.mapM Shaped.ofRegular? = some as := by
    induction h with
    | nil => exact ⟨[], .nil, rfl⟩
    | cons hb _ ih =>
      obtain ⟨v, hv, ha⟩ := hb
      obtain ⟨vs, hvs, has⟩ := ih
      exact ⟨v :: vs, .cons hv hvs, by rw [List.mapM_cons, ha, has]; rfl⟩
  exact ⟨.arr vs, Reads.list hvs, hregular⟩

/-- **What is printed is read back.** -/
theorem read_print [Shaped α] {j : Json} {a : α} (h : ReadsAs α j a) : read α j.print = .ok a := by
  obtain ⟨v, hreads, hregular⟩ := h
  obtain ⟨pos', hread⟩ := hreads ⟨1, 0⟩ [] (isOver_of_ends Loose.ends_nil)
  have htext : Cursor.ofText j.print.toList = ⟨⟨1, 0⟩, j.compact ++ []⟩ := by
    rw [print, String.toList_ofList, List.append_nil]
    rfl
  have hwhole : (Shaped.schema α).read j.print = .ok v := by
    unfold Schema.read readAll
    rw [htext, hread]
    rfl
  unfold read
  rw [hwhole]
  simp only [bind, Except.bind, ofRegular, hregular]

end SheetLint.Json
