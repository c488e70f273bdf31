import SheetLint.Proofs.Json.Schema.Printed

/-!
# The indented form read back

The indented form of a value is read as the value with the fields of its objects sorted by name,
`parse_printIndented`, provided that its numbers are whole and that its arrays and objects are not
nested too deeply.

New lines and blanks stand in front of an item, of a name and of what closes an array or an object,
and behind a colon.  At each of these places the reader skips them, so the laws for the loops over
items and fields only ask that the parts are read from their own texts.

A loop is given the text from the comma on.  In front of the first item there is none, and the loop
does not look for one then; so both cases are stated at once, by a comma that is put there in the
statement (`items_indentedItems`, `fields_indentedFields`).

The reader counts how deep it goes.  `IsWithin` says how deep a value is, and an array or an object
is read with one step less for its parts.
-/

namespace SheetLint.Json

open Number (IsOver)

/-! ### Sorted values -/

mutual

/-- The value with the fields of every object sorted by name. -/
def sorted : Json → Json
  | .arr items => .arr (sortedItems items)
  | .obj fields => ofFields (sortedFields fields)
  | .null => .null
  | .bool b => .bool b
  | .int n => .int n
  | .float x => .float x
  | .str s => .str s

/-- The items, sorted each. -/
def sortedItems : List Json → List Json
  | [] => []
  | x :: xs => sorted x :: sortedItems xs

/-- The fields in their order, their values sorted each. -/
def sortedFields : List (String × Json) → List (String × Json)
  | [] => []
  | (k, v) :: fields => (k, sorted v) :: sortedFields fields

end

@[simp] lemma sorted_str (s : String) : (Json.str s).sorted = .str s := by rw [sorted]

@[simp] lemma sorted_nat (n : ℕ) : (nat n).sorted = nat n := by rw [nat, sorted]

lemma sortedItems_eq_map (xs : List Json) : sortedItems xs = xs.map sorted := by
  induction xs with
  | nil => rfl
  | cons x xs ih => rw [sortedItems, ih, List.map_cons]

@[simp] lemma sorted_arr (xs : List Json) : (Json.arr xs).sorted = .arr (xs.map sorted) := by
  rw [sorted, sortedItems_eq_map]

lemma sortedFields_eq_map (fields : List (String × Json)) :
    sortedFields fields = fields.map fun p => (p.1, p.2.sorted) := by
  induction fields with
  | nil => rfl
  | cons p fields ih => rw [sortedFields, ih, List.map_cons]

lemma lookup_sortedFields (fields : List (String × Json)) (name : String) :
    (sortedFields fields).lookup name = (fields.lookup name).map sorted := by
  induction fields with
  | nil => rfl
  | cons p fields ih =>
    rw [sortedFields, List.lookup_cons, List.lookup_cons, ih]
    cases name == p.1 <;> rfl

/-- **The fields stay.**  Of several with one name the last one counts. -/
lemma field?_sorted (fields : List (String × Json)) (name : String) :
    (Json.obj fields).sorted.field? name = (fields.reverse.lookup name).map sorted := by
  have hreverse : (sortedFields fields).reverse = sortedFields fields.reverse := by
    rw [sortedFields_eq_map, sortedFields_eq_map, List.map_reverse]
  rw [sorted, ofFields, field?, Keyed.find?_ofPairs, hreverse, lookup_sortedFields]

/-- The value behind the names of fields inside of each other. -/
def fieldAt? (j : Json) : List String → Option Json
  | [] => some j
  | name :: names => (j.field? name).bind fun inner => inner.fieldAt? names

/-- The value has at most `depth` arrays and objects inside of each other. -/
def IsWithin : ℕ → Json → Prop
  | 0, .arr _ => False
  | 0, .obj _ => False
  | depth + 1, .arr items => ∀ x ∈ items, IsWithin depth x
  | depth + 1, .obj fields => ∀ p ∈ fields, IsWithin depth p.2
  | _, _ => True

lemma IsWithin.mono {m n : ℕ} {j : Json} (h : j.IsWithin m) (hmn : m ≤ n) : j.IsWithin n := by
  induction m generalizing n j with
  | zero =>
    cases j with
    | arr items => exact h.elim
    | obj fields => exact h.elim
    | _ => cases n <;> trivial
  | succ m ih =>
    obtain ⟨n, rfl⟩ := Nat.exists_eq_add_of_le' (Nat.one_le_of_lt hmn)
    have hmn : m ≤ n := Nat.le_of_succ_le_succ hmn
    cases j with
    | arr items => exact fun x hx => ih (h x hx) hmn
    | obj fields => exact fun p hp => ih (h p hp) hmn
    | _ => trivial

/-! ### Blanks -/

lemma skipBlanks_replicate (n : ℕ) {c : Char} (hc : c ∉ [' ', '\t', '\n', '\r']) (pos : Pos)
    (rest : List Char) :
    ∃ pos', Cursor.skipBlanks ⟨pos, List.replicate n ' ' ++ c :: rest⟩ = ⟨pos', c :: rest⟩ := by
  induction n generalizing pos with
  | zero => exact ⟨pos, skipBlanks_cons hc pos rest⟩
  | succ n ih => exact ih (pos.behind ' ')

/-- **A new line is skipped.** -/
lemma skipBlanks_newline (depth : ℕ) {c : Char} (hc : c ∉ [' ', '\t', '\n', '\r']) (pos : Pos)
    (rest : List Char) :
    ∃ pos', Cursor.skipBlanks ⟨pos, newline depth ++ c :: rest⟩ = ⟨pos', c :: rest⟩ :=
  skipBlanks_replicate (2 * depth) hc (pos.behind '\n') rest

/-- **Values are read behind blanks.** -/
lemma value_congr_skipBlanks (depth : ℕ) {c c' : Cursor} (h : c.skipBlanks = c'.skipBlanks) :
    value depth c = value depth c' := by
  rw [value.eq_def depth c, value.eq_def depth c']
  simp only [h]

lemma Reads.blank {depth : ℕ} {text : List Char} {j : Json} (h : Reads (value depth) text j) :
    Reads (value depth) (' ' :: text) j := by
  intro pos rest hover
  obtain ⟨pos', hread⟩ := h (pos.behind ' ') rest hover
  refine ⟨pos', ?_⟩
  rw [← hread]
  exact value_congr_skipBlanks depth rfl

/-! ### The text of a value -/

/-- An indented value begins as a written one does. -/
lemma exists_indented_eq_cons (depth : ℕ) (j : Json) :
    ∃ c more, indented depth j = c :: more ∧ IsFront c := by
  cases j with
  | arr items =>
    cases items with
    | nil => exact ⟨_, _, rfl, by decide⟩
    | cons x xs => exact ⟨_, _, by rw [indented], by decide⟩
  | obj fields =>
    cases fields with
    | nil => exact ⟨_, _, rfl, by decide⟩
    | cons p fields => exact ⟨_, _, by rw [indented], by decide⟩
  | _ =>
    rw [indented]
    exact exists_compact_eq_cons _

lemma isOver_indentedItems (depth : ℕ) (xs : List Json) (rest : List Char) :
    IsOver (indentedItems depth xs ++ rest) := by
  cases xs <;> simp [indentedItems, newline, IsOver]

lemma isOver_indentedFields (depth : ℕ) (fields : List (String × Json)) (rest : List Char) :
    IsOver (indentedFields depth fields ++ rest) := by
  cases fields <;> simp [indentedFields, newline, IsOver]

lemma skipBlanks_newline_indented (depth : ℕ) (j : Json) (pos : Pos) (rest : List Char) :
    ∃ pos', Cursor.skipBlanks ⟨pos, newline depth ++ (indented depth j ++ rest)⟩ =
      ⟨pos', indented depth j ++ rest⟩ := by
  obtain ⟨c, more, hj, hfront⟩ := exists_indented_eq_cons depth j
  rw [hj]
  exact skipBlanks_newline depth hfront.not_blank pos (more ++ rest)

/-! ### Arrays -/

/-- **The next item**, where the items of an array follow.  In front of the first one there is no
comma. -/
lemma nextItem_indentedItems {first : Bool} {c : Cursor} {depth : ℕ} {x : Json} {xs : List Json}
    {rest : List Char}
    (hc : (if first then ',' :: c.rest else c.rest) = indentedItems depth (x :: xs) ++ rest) :
    ∃ pos', nextItem first c =
      .ok (.item, ⟨pos', indented (depth + 1) x ++ (indentedItems depth xs ++ rest)⟩) := by
  have htext : indentedItems depth (x :: xs) ++ rest = ',' :: (newline (depth + 1) ++
      (indented (depth + 1) x ++ (indentedItems depth xs ++ rest))) := by
    simp only [indentedItems, List.cons_append, List.append_assoc]
  obtain ⟨pos, text⟩ := c
  obtain ⟨front, more, hx, hfront⟩ := exists_indented_eq_cons (depth + 1) x
  rw [htext] at hc
  cases first with
  | true =>
    obtain rfl : text = _ := (List.cons.inj hc).2
    obtain ⟨pos', hskip⟩ :=
      skipBlanks_newline_indented (depth + 1) x pos (indentedItems depth xs ++ rest)
    refine ⟨pos', ?_⟩
    rw [hx] at hskip ⊢
    exact nextItem_first hfront.ne_bracket hskip
  | false =>
    obtain rfl : text = _ := hc
    obtain ⟨pos', hskip⟩ :=
      skipBlanks_newline_indented (depth + 1) x (pos.behind ',') (indentedItems depth xs ++ rest)
    refine ⟨pos', ?_⟩
    rw [hx] at hskip ⊢
    exact nextItem_comma hfront.ne_bracket hskip

/-- **The items, and the end of the array.** -/
lemma items_indentedItems {item : Reader Json} {depth : ℕ} {xs ys : List Json}
    (h : List.Forall₂ (fun x y => Reads item (indented (depth + 1) x) y) xs ys) {rounds : ℕ}
    (hrounds : xs.length < rounds) {first : Bool} {c : Cursor} {rest : List Char}
    (hc : (if first then ',' :: c.rest else c.rest) = indentedItems depth xs ++ rest) :
    ∃ pos', items item rounds first c = .ok (ys, ⟨pos', rest⟩) := by
  induction h generalizing rounds first c with
  | nil =>
    obtain ⟨rounds, rfl⟩ := Nat.exists_eq_add_of_le' (Nat.one_le_of_lt hrounds)
    have htext : indentedItems depth [] ++ rest = newline depth ++ ']' :: rest := by
      rw [indentedItems, List.append_assoc, List.singleton_append]
    obtain ⟨pos, text⟩ := c
    rw [htext] at hc
    -- a comma is no new line, so the loop does not end in front of a first item
    cases first with
    | true => exact absurd (List.cons.inj hc).1 (by decide)
    | false =>
      obtain rfl : text = _ := hc
      obtain ⟨pos', hskip⟩ := skipBlanks_newline depth (c := ']') (by decide) pos rest
      have hdone : nextItem false ⟨pos, newline depth ++ ']' :: rest⟩ =
          .ok (.done, ⟨pos', ']' :: rest⟩) := by
        unfold nextItem
        rw [hskip]
        rfl
      exact ⟨pos'.behind ']', by rw [items, hdone]; rfl⟩
  | @cons x y xs ys hx _ ih =>
    obtain ⟨rounds, rfl⟩ := Nat.exists_eq_add_of_le' (Nat.one_le_of_lt hrounds)
    rw [List.length_cons, Nat.add_lt_add_iff_right] at hrounds
    obtain ⟨pos', hnext⟩ := nextItem_indentedItems hc
    obtain ⟨pos'', hread⟩ := hx pos' _ (isOver_indentedItems depth xs rest)
    obtain ⟨last, hitems⟩ :=
      @ih _ hrounds false ⟨pos'', indentedItems depth xs ++ rest⟩ rfl
    exact ⟨last, by rw [items_succ hnext hread, hitems]; rfl⟩

lemma length_lt_length_indentedItems (depth : ℕ) (xs : List Json) :
    xs.length < (indentedItems depth xs).length := by
  induction xs with
  | nil => simp [indentedItems]
  | cons x xs ih =>
    simp only [indentedItems, List.length_cons, List.length_append]
    omega

lemma value_bracket (bound : ℕ) (pos : Pos) (text : List Char) :
    value (bound + 2) ⟨pos, '[' :: text⟩ =
      (items (value (bound + 1)) (text.length + 1) true ⟨pos.behind '[', text⟩).map
        fun p => (.arr p.1, p.2) := by
  rw [value.eq_def]
  rfl

/-- **An array.** -/
lemma reads_indented_arr {bound depth : ℕ} {xs ys : List Json}
    (h : List.Forall₂ (fun x y => Reads (value (bound + 1)) (indented (depth + 1) x) y) xs ys) :
    Reads (value (bound + 2)) (indented depth (.arr xs)) (.arr ys) := by
  intro pos rest _
  cases xs with
  | nil =>
    obtain rfl : ys = [] := List.forall₂_nil_left_iff.mp h
    have htext : indented depth (.arr []) ++ rest = '[' :: ']' :: rest := rfl
    exact ⟨_, by rw [htext, value_bracket]; rfl⟩
  | cons x xs =>
    let text := newline (depth + 1) ++ (indented (depth + 1) x ++ (indentedItems depth xs ++ rest))
    have htext : indented depth (.arr (x :: xs)) ++ rest = '[' :: text := by
      simp only [indented, List.cons_append, List.append_assoc, text]
    have hcomma : ',' :: text = indentedItems depth (x :: xs) ++ rest := by
      simp only [indentedItems, List.cons_append, List.append_assoc, text]
    have hrounds : (x :: xs).length < text.length + 1 := by
      have hlength := congrArg List.length hcomma
      have hitems := length_lt_length_indentedItems depth (x :: xs)
      rw [List.length_append, List.length_cons] at hlength
      omega
    obtain ⟨last, hitems⟩ :=
      @items_indentedItems _ _ _ _ h _ hrounds true ⟨pos.behind '[', text⟩ rest hcomma
    exact ⟨last, by rw [htext, value_bracket, hitems]; rfl⟩

/-! ### Objects -/

lemma skipBlanks_newline_quote (depth : ℕ) (k : String) (pos : Pos) (rest : List Char) :
    ∃ pos', Cursor.skipBlanks ⟨pos, newline depth ++ (quote k.toList ++ rest)⟩ =
      ⟨pos', quote k.toList ++ rest⟩ :=
  skipBlanks_newline depth (c := '\x22') (by decide) pos
    (k.toList.flatMap escape ++ ['\x22'] ++ rest)

/-- **The next name**, where the fields of an object follow. -/
lemma nextKey_indentedFields {first : Bool} {c : Cursor} {depth : ℕ} {k : String} {v : Json}
    {fields : List (String × Json)} {rest : List Char}
    (hc : (if first then ',' :: c.rest else c.rest) =
      indentedFields depth ((k, v) :: fields) ++ rest) :
    ∃ pos', nextKey first c = .ok (some k, ⟨pos', ':' :: ' ' ::
      (indented (depth + 1) v ++ (indentedFields depth fields ++ rest))⟩) := by
  let behind := ':' :: ' ' :: (indented (depth + 1) v ++ (indentedFields depth fields ++ rest))
  have htext : indentedFields depth ((k, v) :: fields) ++ rest =
      ',' :: (newline (depth + 1) ++ (quote k.toList ++ behind)) := by
    simp only [indentedFields, List.cons_append, List.append_assoc, behind]
  obtain ⟨pos, text⟩ := c
  rw [htext] at hc
  cases first with
  | true =>
    obtain rfl : text = _ := (List.cons.inj hc).2
    obtain ⟨pos', hskip⟩ := skipBlanks_newline_quote (depth + 1) k pos behind
    obtain ⟨pos'', hkey⟩ := key_quote k pos' behind
    refine ⟨pos'', ?_⟩
    unfold nextKey
    rw [hskip]
    exact hkey
  | false =>
    obtain rfl : text = _ := hc
    obtain ⟨pos', hskip⟩ := skipBlanks_newline_quote (depth + 1) k (pos.behind ',') behind
    obtain ⟨pos'', hkey⟩ := key_quote k pos' behind
    refine ⟨pos'', ?_⟩
    unfold nextKey
    rw [skipBlanks_cons (by decide)]
    simp only [Cursor.next, hskip]
    exact hkey

lemma fields_succ {α : Type} {reader : Reader α} {a : α} {k : String} {first : Bool}
    {c c'' : Cursor} {pos : Pos} {text : List Char}
    (hkey : nextKey first c = .ok (some k, ⟨pos, ':' :: text⟩))
    (hread : reader ⟨pos.behind ':', text⟩ = .ok (a, c'')) (rounds : ℕ) :
    fields reader (rounds + 1) first c =
      (fields reader rounds false c'').map fun p => ((k, a) :: p.1, p.2) := by
  have hcolon : colon ⟨pos, ':' :: text⟩ = .ok ⟨pos.behind ':', text⟩ := rfl
  rw [fields]
  simp only [hkey, hcolon, hread, bind, Except.bind]
  cases fields reader rounds false c'' <;> rfl

/-- The value of a field is read behind its colon, under the name of the field. -/
def ReadsIndented (reader : Reader Json) (depth : ℕ) (field value : String × Json) : Prop :=
  field.1 = value.1 ∧ Reads reader (' ' :: indented depth field.2) value.2

/-- **The fields, and the end of the object.** -/
lemma fields_indentedFields {reader : Reader Json} {depth : ℕ} {given values : List (String × Json)}
    (h : List.Forall₂ (ReadsIndented reader (depth + 1)) given values) {rounds : ℕ}
    (hrounds : given.length < rounds) {first : Bool} {c : Cursor} {rest : List Char}
    (hc : (if first then ',' :: c.rest else c.rest) = indentedFields depth given ++ rest) :
    ∃ pos', fields reader rounds first c = .ok (values, ⟨pos', rest⟩) := by
  induction h generalizing rounds first c with
  | nil =>
    obtain ⟨rounds, rfl⟩ := Nat.exists_eq_add_of_le' (Nat.one_le_of_lt hrounds)
    have htext : indentedFields depth [] ++ rest = newline depth ++ '\x7d' :: rest := by
      rw [indentedFields, List.append_assoc, List.singleton_append]
    obtain ⟨pos, text⟩ := c
    rw [htext] at hc
    cases first with
    | true => exact absurd (List.cons.inj hc).1 (by decide)
    | false =>
      obtain rfl : text = _ := hc
      obtain ⟨pos', hskip⟩ := skipBlanks_newline depth (c := '\x7d') (by decide) pos rest
      have hdone : nextKey false ⟨pos, newline depth ++ '\x7d' :: rest⟩ =
          .ok (none, ⟨pos', '\x7d' :: rest⟩) := by
        unfold nextKey
        rw [hskip]
        rfl
      exact ⟨pos'.behind '\x7d', by rw [fields, hdone]; rfl⟩
  | @cons p q given values hfield _ ih =>
    obtain ⟨rounds, rfl⟩ := Nat.exists_eq_add_of_le' (Nat.one_le_of_lt hrounds)
    rw [List.length_cons, Nat.add_lt_add_iff_right] at hrounds
    obtain ⟨k, v⟩ := p
    obtain ⟨_, w⟩ := q
    obtain ⟨rfl, hv⟩ := hfield
    obtain ⟨pos', hkey⟩ := nextKey_indentedFields hc
    obtain ⟨pos'', hread⟩ := hv (pos'.behind ':') _ (isOver_indentedFields depth given rest)
    obtain ⟨last, hfields⟩ :=
      @ih _ hrounds false ⟨pos'', indentedFields depth given ++ rest⟩ rfl
    exact ⟨last, by rw [fields_succ hkey hread, hfields]; rfl⟩

lemma length_lt_length_indentedFields (depth : ℕ) (given : List (String × Json)) :
    given.length < (indentedFields depth given).length := by
  induction given with
  | nil => simp [indentedFields]
  | cons p given ih =>
    simp only [indentedFields, List.length_cons, List.length_append]
    omega

lemma value_brace (bound : ℕ) (pos : Pos) (text : List Char) :
    value (bound + 2) ⟨pos, '\x7b' :: text⟩ =
      (fields (value (bound + 1)) (text.length + 1) true ⟨pos.behind '\x7b', text⟩).map
        fun p => (ofFields p.1, p.2) := by
  rw [value.eq_def]
  rfl

/-- **An object.** -/
lemma reads_indented_obj {bound depth : ℕ} {given values : List (String × Json)}
    (h : List.Forall₂ (ReadsIndented (value (bound + 1)) (depth + 1)) given values) :
    Reads (value (bound + 2)) (indented depth (.obj given)) (ofFields values) := by
  intro pos rest _
  cases given with
  | nil =>
    obtain rfl : values = [] := List.forall₂_nil_left_iff.mp h
    have htext : indented depth (.obj []) ++ rest = '\x7b' :: '\x7d' :: rest := rfl
    exact ⟨_, by rw [htext, value_brace]; rfl⟩
  | cons p given =>
    obtain ⟨k, v⟩ := p
    let text := newline (depth + 1) ++ (quote k.toList ++ ':' :: ' ' ::
      (indented (depth + 1) v ++ (indentedFields depth given ++ rest)))
    have htext : indented depth (.obj ((k, v) :: given)) ++ rest = '\x7b' :: text := by
      simp only [indented, List.cons_append, List.append_assoc, text]
    have hcomma : ',' :: text = indentedFields depth ((k, v) :: given) ++ rest := by
      simp only [indentedFields, List.cons_append, List.append_assoc, text]
    have hrounds : ((k, v) :: given).length < text.length + 1 := by
      have hlength := congrArg List.length hcomma
      have hfields := length_lt_length_indentedFields depth ((k, v) :: given)
      rw [List.length_append, List.length_cons] at hlength
      omega
    obtain ⟨last, hfields⟩ :=
      @fields_indentedFields _ _ _ _ h _ hrounds true ⟨pos.behind '\x7b', text⟩ rest hcomma
    exact ⟨last, by rw [htext, value_brace, hfields]; rfl⟩

/-! ### Values -/

lemma reads_value_scalar (bound : ℕ) {j : Json}
    (hscalar : ∀ pos rest, IsOver rest →
      ∃ pos', scalar? ⟨pos, compact j ++ rest⟩ = some (.ok (j, ⟨pos', rest⟩))) :
    Reads (value bound) (compact j) j := by
  intro pos rest hover
  obtain ⟨pos', htaken⟩ := hscalar pos rest hover
  obtain ⟨c, more, hc, hfront⟩ := exists_compact_eq_cons j
  refine ⟨pos', ?_⟩
  rw [hc, List.cons_append] at htaken ⊢
  rw [value.eq_def]
  simp only [skipBlanks_cons hfront.not_blank, htaken]

/-- **Indented values are read back**, sorted, by a reader that goes deep enough.  By induction on
the value, since the reader of an array or object reads its parts with one step less of depth. -/
theorem reads_indented {j : Json} (hwhole : j.IsWhole) {bound : ℕ} (hwithin : j.IsWithin bound)
    (depth : ℕ) : Reads (value (bound + 1)) (indented depth j) j.sorted := by
  induction hwhole generalizing bound depth with
  | null => exact reads_value_scalar _ fun pos rest _ => ⟨_, rfl⟩
  | bool b =>
    cases b with
    | false => exact reads_value_scalar _ fun pos rest _ => ⟨_, rfl⟩
    | true => exact reads_value_scalar _ fun pos rest _ => ⟨_, rfl⟩
  | int n hlow hhigh =>
    exact reads_value_scalar _ fun pos rest hover => scalar?_integer hlow hhigh pos hover
  | str s => exact reads_value_scalar _ fun pos rest _ => scalar?_quote s pos rest
  | arr items _ ih =>
    cases bound with
    | zero => exact hwithin.elim
    | succ bound =>
      rw [sorted_arr]
      refine reads_indented_arr (List.forall₂_map_right_iff.mpr (List.forall₂_same.mpr ?_))
      exact fun x hx => ih x hx (hwithin x hx) (depth + 1)
  | obj fields _ ih =>
    cases bound with
    | zero => exact hwithin.elim
    | succ bound =>
      rw [sorted, sortedFields_eq_map]
      refine reads_indented_obj (List.forall₂_map_right_iff.mpr (List.forall₂_same.mpr ?_))
      exact fun p hp => ⟨rfl, (ih p hp (hwithin p hp) (depth + 1)).blank⟩

/-- **What is printed with indentation is read back**, with its fields sorted. -/
theorem parse_printIndented {j : Json} (hwhole : j.IsWhole) {bound : ℕ} (hwithin : j.IsWithin bound)
    (hbound : bound < depthLimit) : parse j.printIndented = .ok j.sorted := by
  have hwithin : j.IsWithin (depthLimit - 1) := hwithin.mono (Nat.le_sub_one_of_lt hbound)
  obtain ⟨pos', hread⟩ :=
    reads_indented hwhole hwithin 0 ⟨1, 0⟩ [] (Number.isOver_of_ends Loose.ends_nil)
  have htext : Cursor.ofText j.printIndented.toList = ⟨⟨1, 0⟩, indented 0 j ++ []⟩ := by
    rw [printIndented, String.toList_ofList, List.append_nil]
    rfl
  have hdepth : depthLimit - 1 + 1 = depthLimit := rfl
  rw [hdepth] at hread
  unfold parse readAll
  rw [htext, hread]
  rfl

end SheetLint.Json
