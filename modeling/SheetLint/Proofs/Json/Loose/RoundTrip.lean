import SheetLint.Proofs.Json.Loose.Sorted
import SheetLint.Proofs.Json.Loose.Tokens

/-!
# Reading printed values back

Loose JSON reads what is printed: the object that comes back has the fields that were printed
(`parse_print`), provided that the numbers are whole and the values of the fields sorted.  A double
would come back as the double that its text is read as, which need not be the same.

The grammar is followed over the tokens that `Loose.Tokens` gives (`IsReadBack`).  It reads a value
from the front of the tokens and leaves the others, and needs no more rounds than the value has
tokens.  For an array or an object this is the same for each part, one round less being left behind
each.

The fields of an object are put into an object in the order in which they are read.  If they are
sorted this leaves them as they are, which is why values have to be sorted inside; the outermost
object need not be, and comes back sorted.

Numbers are read by their spelling, which the text of an integer is.  Where a number ends is a
matter of the next character, `IsOver`.
-/

namespace SheetLint.Json

/-! ### Numbers -/

namespace Number

lemma le_valueFrom (n : ℕ) (digits : List Char) : n ≤ Decimal.valueFrom n digits := by
  induction digits generalizing n with
  | nil => exact le_rfl
  | cons c digits ih =>
    have h := ih (10 * n + Decimal.digitValue c)
    exact le_trans (by omega) h

lemma gather_eq {bound n : ℕ} {digits : List Char} (h : Decimal.valueFrom n digits ≤ bound) :
    gather bound n digits = (Decimal.valueFrom n digits, []) := by
  induction digits generalizing n with
  | nil => rfl
  | cons c digits ih =>
    have hfirst : 10 * n + Decimal.digitValue c ≤ bound := le_trans (le_valueFrom _ digits) h
    rw [gather]
    simp only [hfirst, if_true]
    exact ih h

/-- No number goes on into the text. -/
def IsOver (text : List Char) : Prop :=
  ∀ c ∈ text.head?, c.isDigit = false ∧ c ∉ ['.', 'e', 'E']

lemma isOver_of_ends {text : List Char} (h : Loose.Ends text) : IsOver text := by
  intro c hc
  rcases h c hc with rfl | rfl | rfl <;> decide

lemma IsOver.ne_cons {text : List Char} (h : IsOver text) {c : Char} (hc : c ∈ ['.', 'e', 'E'])
    (more : List Char) : text ≠ c :: more := by
  rintro rfl
  exact (h c rfl).2 hc

/-- **A written number is read back**, and what ends it is left. -/
lemma unsigned_natural {n : ℕ} (hn : n ≤ limit) (negative : Bool) (pos : Pos) {rest : List Char}
    (hover : IsOver rest) :
    ∃ pos', unsigned negative ⟨pos, Decimal.natural n ++ rest⟩ =
      .ok (integer negative n, ⟨pos', rest⟩) := by
  have hdigits : digits ⟨pos, Decimal.natural n ++ rest⟩ =
      (Decimal.natural n, ⟨⟨pos.line, pos.column + (Decimal.natural n).length⟩, rest⟩) := by
    have hrest : rest.head?.any Char.isDigit = false := by
      cases rest with
      | nil => rfl
      | cons c rest => exact (hover c rfl).1
    obtain ⟨htake, hdrop⟩ :=
      Loose.takeWhile_dropWhile_isDigit (Decimal.allDigits_natural n) hrest
    simp only [digits, htake, hdrop]
  have hgather : gather limit 0 (Decimal.natural n) = (n, []) := by
    have hvalue := Decimal.valueFrom_natural n
    rw [gather_eq (by rw [hvalue]; exact hn), hvalue]
  refine ⟨⟨pos.line, pos.column + (Decimal.natural n).length⟩, ?_⟩
  -- Either a zero is followed by a digit, which no written number has, or the digits are gathered
  -- and nothing that goes on with a number follows.
  unfold unsigned
  simp only [hdigits]
  split
  · next h =>
    obtain ⟨c, rest, hnatural, -⟩ := Decimal.startsWithDigit_natural n
    simp [hnatural] at h
  · next d rest h =>
    obtain rfl | hzero := eq_or_ne n 0
    · simp [Decimal.natural] at h
    · exact absurd h (Decimal.natural_ne_zero_cons hzero (d :: rest))
  · simp only [hgather]
    split
    · next text => exact absurd rfl (hover.ne_cons (c := '.') (by decide) text)
    · next text => exact absurd rfl (hover.ne_cons (c := 'e') (by decide) text)
    · next text => exact absurd rfl (hover.ne_cons (c := 'E') (by decide) text)
    · rfl

lemma integer_true {n : ℕ} (hzero : n ≠ 0) (hn : n ≤ 2 ^ 63) : integer true n = .int (-n) := by
  have hrange : n ≠ 0 ∧ n ≤ 0x8000000000000000 := ⟨hzero, hn⟩
  rw [integer, if_pos rfl, if_pos hrange]

lemma unsigned_ofText_natural {n : ℕ} (hn : n ≤ limit) (negative : Bool) :
    ∃ c, unsigned negative (.ofText (Decimal.natural n)) = .ok (integer negative n, c) := by
  obtain ⟨pos, hunsigned⟩ := unsigned_natural hn negative ⟨1, 0⟩ (isOver_of_ends Loose.ends_nil)
  rw [List.append_nil] at hunsigned
  exact ⟨_, hunsigned⟩

end Number

namespace Loose

open SheetLint.Text (Place)

lemma natural_ne_hex (n : ℕ) {x : Char} (hx : x = 'x' ∨ x = 'X') (text : List Char) :
    Decimal.natural n ≠ '0' :: x :: text := by
  simpa using ends_nil.not_hex n hx text

lemma numberValue_natural {n : ℕ} (hn : n ≤ Number.limit) :
    numberValue (String.ofList (Decimal.natural n)) = .int n := by
  obtain ⟨pos, hunsigned⟩ := Number.unsigned_ofText_natural hn false
  obtain ⟨c, digits, hnatural, hc⟩ := Decimal.startsWithDigit_natural n
  have hsign := ne_sign_of_isDigit hc
  have hnotHex {x : Char} (hx : x = 'x' ∨ x = 'X') (text : List Char) :
      c :: digits ≠ '0' :: x :: text := by
    rw [← hnatural]
    exact natural_ne_hex n hx text
  rw [hnatural] at hunsigned ⊢
  unfold numberValue
  -- no sign is read where a digit stands
  simp only [String.toList_ofList, List.cons.injEq, hsign.1, hsign.2, false_and, imp_self,
    implies_true]
  split
  · next text h => exact absurd h (hnotHex (Or.inl rfl) text)
  · next text h => exact absurd h (hnotHex (Or.inr rfl) text)
  · rw [hunsigned]
    rfl

lemma numberValue_minus {n : ℕ} (hzero : n ≠ 0) (hn : n ≤ 2 ^ 63) :
    numberValue (String.ofList ('-' :: Decimal.natural n)) = .int (-n) := by
  have hlimit : n ≤ Number.limit := hn.trans (by decide)
  obtain ⟨pos, hunsigned⟩ := Number.unsigned_ofText_natural hlimit true
  unfold numberValue
  simp only [String.toList_ofList]
  split
  · next text h => exact absurd h (natural_ne_hex n (Or.inl rfl) text)
  · next text h => exact absurd h (natural_ne_hex n (Or.inr rfl) text)
  · rw [hunsigned, Number.integer_true hzero hn]

/-- **A written integer of 64 bits is read back.** -/
lemma numberValue_integer {n : ℤ} (hlow : -2 ^ 63 ≤ n) (hhigh : n < 2 ^ 64) :
    numberValue (String.ofList (Decimal.integer n)) = .int n := by
  cases n with
  | ofNat k =>
    have hk : k ≤ Number.limit := by
      rw [Int.ofNat_eq_natCast] at hhigh
      rw [Number.limit]
      omega
    exact numberValue_natural hk
  | negSucc k =>
    have hk : k + 1 ≤ 2 ^ 63 := by
      rw [Int.negSucc_eq] at hlow
      omega
    rw [Decimal.integer, numberValue_minus (Nat.succ_ne_zero k) hk, Int.negSucc_eq,
      Int.natCast_succ]

/-! ### The grammar over the tokens -/

/-- The tokens that are left. -/
def Stream.tokens (s : Stream) : List Token := s.lexemes.map Lexeme.token

lemma Stream.exists_of_tokens_eq {s : Stream} {t : Token} {tokens : List Token}
    (h : s.tokens = t :: tokens) :
    ∃ place, s.lexemes = ⟨t, place⟩ :: s.next.lexemes ∧ s.next.tokens = tokens := by
  obtain ⟨lexeme, more, hlexemes, rfl, htokens⟩ := List.map_eq_cons_iff.mp h
  refine ⟨lexeme.place, ?_, ?_⟩
  · simp [Stream.next, hlexemes]
  · simpa [Stream.next, Stream.tokens, hlexemes] using htokens

lemma Stream.skipComma_of_comma {s : Stream} {tokens : List Token}
    (h : s.tokens = .comma :: tokens) : s.skipComma = s.next := by
  obtain ⟨place, hlexemes, -⟩ := s.exists_of_tokens_eq h
  rw [Stream.skipComma, hlexemes]

lemma Stream.skipComma_of_ne {s : Stream} {t : Token} {tokens : List Token}
    (h : s.tokens = t :: tokens) (ht : t ≠ .comma) : s.skipComma = s := by
  obtain ⟨place, hlexemes, -⟩ := s.exists_of_tokens_eq h
  rw [Stream.skipComma, hlexemes]
  split
  · next h =>
    obtain ⟨⟨rfl, -⟩, -⟩ := by simpa using h
    exact absurd rfl ht
  · rfl

/-- No value begins with the end of an array. -/
lemma exists_tokensOf_eq_cons (j : Json) :
    ∃ t tokens, tokensOf j = t :: tokens ∧ t ≠ .closeBracket := by
  cases j with
  | arr items =>
    cases items <;>
    · rw [tokensOf]
      exact ⟨_, _, rfl, by simp⟩
  | obj fields =>
    cases fields <;>
    · rw [tokensOf]
      exact ⟨_, _, rfl, by simp⟩
  | _ =>
    rw [tokensOf]
    exact ⟨_, _, rfl, by simp⟩

lemma length_tokensOf_pos (j : Json) : 0 < (tokensOf j).length := by
  obtain ⟨t, tokens, h, -⟩ := exists_tokensOf_eq_cons j
  rw [h]
  exact Nat.succ_pos _

/-- **Reading back.**  The value is read from its tokens, whatever follows them, in as many rounds
as there are tokens. -/
def IsReadBack (j : Json) : Prop :=
  ∀ ⦃rounds : ℕ⦄ ⦃s : Stream⦄ ⦃rest : List Token⦄, (tokensOf j).length ≤ rounds →
    s.tokens = tokensOf j ++ rest →
      ∃ s' : Stream, s'.tokens = rest ∧ ∀ absent, value rounds absent s = .ok (j, s')

lemma IsReadBack.items_succ {x : Json} (h : IsReadBack x) (rounds : ℕ) {s : Stream}
    {rest : List Token} (hrounds : (tokensOf x).length ≤ rounds)
    (hs : s.tokens = tokensOf x ++ rest) (opened : Place) :
    ∃ s' : Stream, s'.tokens = rest ∧ items (rounds + 1) opened s =
      (items rounds opened s'.skipComma).map fun p => (x :: p.1, p.2) := by
  obtain ⟨s', hrest, hvalue⟩ := h hrounds hs
  obtain ⟨t, tokens, ht, hne⟩ := exists_tokensOf_eq_cons x
  rw [ht, List.cons_append] at hs
  obtain ⟨place, hlexemes, -⟩ := s.exists_of_tokens_eq hs
  refine ⟨s', hrest, ?_⟩
  rw [items]
  split
  · next hclosed =>
    rw [hlexemes] at hclosed
    simp [hne] at hclosed
  · rw [hvalue]
    rfl

lemma IsReadBack.fields_succ {v : Json} (h : IsReadBack v) (rounds : ℕ) {s : Stream} {k : String}
    {rest : List Token} (hrounds : (tokensOf v).length ≤ rounds)
    (hs : s.tokens = .string k :: .colon :: (tokensOf v ++ rest)) (opened : Place) :
    ∃ s' : Stream, s'.tokens = rest ∧ fields (rounds + 1) opened s =
      (fields rounds opened s'.skipComma).map fun p => ((k, v) :: p.1, p.2) := by
  obtain ⟨place, hname, hs⟩ := s.exists_of_tokens_eq hs
  obtain ⟨place', hcolon, hs⟩ := s.next.exists_of_tokens_eq hs
  obtain ⟨s', hrest, hvalue⟩ := h hrounds hs
  refine ⟨s', hrest, ?_⟩
  have hbehind : s.next.colon = .ok s.next.next := by
    rw [Stream.colon, hcolon]
  rw [fields, hname]
  simp only [hbehind, hvalue, bind, Except.bind, Except.map]

lemma items_of_tokens {x : Json} {xs : List Json} (h : ∀ y ∈ x :: xs, IsReadBack y) (rounds : ℕ)
    {s : Stream} {rest : List Token}
    (hrounds : (tokensOf x).length + (itemTokens xs).length ≤ rounds)
    (hs : s.tokens = tokensOf x ++ (itemTokens xs ++ rest)) (opened : Place) :
    ∃ s' : Stream, s'.tokens = rest ∧ items rounds opened s = .ok (x :: xs, s') := by
  induction xs generalizing x rounds s with
  | nil =>
    have hpos := length_tokensOf_pos x
    rw [itemTokens, List.length_singleton] at hrounds
    -- one round for the item and one for the bracket
    obtain ⟨rounds, rfl⟩ := Nat.exists_eq_add_of_le' (show 2 ≤ rounds by omega)
    obtain ⟨s', hrest, hitem⟩ :=
      (h x List.mem_cons_self).items_succ (rounds + 1) (by omega) hs opened
    obtain ⟨place, hlexemes, hnext⟩ := s'.exists_of_tokens_eq hrest
    refine ⟨s'.next, hnext, ?_⟩
    rw [hitem, s'.skipComma_of_ne hrest (by simp), items, hlexemes]
    rfl
  | cons y ys ih =>
    simp only [itemTokens, List.length_cons, List.length_append] at hrounds
    obtain ⟨rounds, rfl⟩ := Nat.exists_eq_add_of_le' (show 1 ≤ rounds by omega)
    obtain ⟨s', hrest, hitem⟩ :=
      (h x List.mem_cons_self).items_succ rounds (by omega) hs opened
    rw [itemTokens, List.cons_append, List.append_assoc] at hrest
    obtain ⟨-, -, hnext⟩ := s'.exists_of_tokens_eq hrest
    obtain ⟨s'', hrest', hitems⟩ :=
      ih (List.forall_mem_cons.mp h).2 rounds (by omega) hnext
    refine ⟨s'', hrest', ?_⟩
    rw [hitem, s'.skipComma_of_comma hrest, hitems]
    rfl

/-- The fields from one on, and the end of the object. -/
lemma fields_of_tokens {k : String} {v : Json} {more : List (String × Json)}
    (h : ∀ p ∈ (k, v) :: more, IsReadBack p.2) (rounds : ℕ) {s : Stream} {rest : List Token}
    (hrounds : (tokensOf v).length + (fieldTokens more).length ≤ rounds)
    (hs : s.tokens = .string k :: .colon :: (tokensOf v ++ (fieldTokens more ++ rest)))
    (opened : Place) :
    ∃ s' : Stream, s'.tokens = rest ∧ fields rounds opened s = .ok ((k, v) :: more, s') := by
  induction more generalizing k v rounds s with
  | nil =>
    have hv : IsReadBack v := h (k, v) List.mem_cons_self
    have hpos := length_tokensOf_pos v
    rw [fieldTokens, List.length_singleton] at hrounds
    obtain ⟨rounds, rfl⟩ := Nat.exists_eq_add_of_le' (show 2 ≤ rounds by omega)
    obtain ⟨s', hrest, hfield⟩ :=
      hv.fields_succ (rounds + 1) (by omega) hs opened
    obtain ⟨place, hlexemes, hnext⟩ := s'.exists_of_tokens_eq hrest
    refine ⟨s'.next, hnext, ?_⟩
    rw [hfield, s'.skipComma_of_ne hrest (by simp), fields, hlexemes]
    rfl
  | cons p more ih =>
    have hv : IsReadBack v := h (k, v) List.mem_cons_self
    simp only [fieldTokens, List.length_cons, List.length_append] at hrounds
    obtain ⟨rounds, rfl⟩ := Nat.exists_eq_add_of_le' (show 1 ≤ rounds by omega)
    obtain ⟨s', hrest, hfield⟩ :=
      hv.fields_succ rounds (by omega) hs opened
    rw [fieldTokens] at hrest
    simp only [List.cons_append, List.append_assoc] at hrest
    obtain ⟨-, -, hnext⟩ := s'.exists_of_tokens_eq hrest
    obtain ⟨s'', hrest', hfields⟩ :=
      ih (List.forall_mem_cons.mp h).2 rounds (by omega) hnext
    refine ⟨s'', hrest', ?_⟩
    rw [hfield, s'.skipComma_of_comma hrest, hfields]
    rfl

lemma isReadBack_arr {xs : List Json} (h : ∀ x ∈ xs, IsReadBack x) : IsReadBack (.arr xs) := by
  intro rounds s rest hrounds hs
  cases xs with
  | nil =>
    rw [tokensOf, List.length_cons, List.length_singleton] at hrounds
    obtain ⟨rounds, rfl⟩ := Nat.exists_eq_add_of_le' hrounds
    obtain ⟨place, hopen, hs⟩ := s.exists_of_tokens_eq hs
    obtain ⟨place', hclose, hs⟩ := s.next.exists_of_tokens_eq hs
    refine ⟨s.next.next, hs, fun absent => ?_⟩
    rw [value, hopen]
    simp only
    rw [items, hclose]
    rfl
  | cons x xs =>
    simp only [tokensOf, List.length_cons, List.length_append] at hrounds
    obtain ⟨rounds, rfl⟩ := Nat.exists_eq_add_of_le' (show 1 ≤ rounds by omega)
    simp only [tokensOf, List.cons_append, List.append_assoc] at hs
    obtain ⟨place, hopen, hs⟩ := s.exists_of_tokens_eq hs
    obtain ⟨s', hrest, hitems⟩ := items_of_tokens h rounds (by omega) hs place
    refine ⟨s', hrest, fun absent => ?_⟩
    rw [value, hopen]
    simp only [hitems]
    rfl

/-- The value of an object's tokens has the fields as the tokens list them. -/
lemma value_obj_of_tokens {fields : List (String × Json)} (h : ∀ p ∈ fields, IsReadBack p.2)
    {rounds : ℕ} {s : Stream} {rest : List Token}
    (hrounds : (tokensOf (.obj fields)).length ≤ rounds)
    (hs : s.tokens = tokensOf (.obj fields) ++ rest) :
    ∃ s' : Stream, s'.tokens = rest ∧
      ∀ absent, value rounds absent s = .ok (ofFields fields, s') := by
  cases fields with
  | nil =>
    rw [tokensOf, List.length_cons, List.length_singleton] at hrounds
    obtain ⟨rounds, rfl⟩ := Nat.exists_eq_add_of_le' hrounds
    obtain ⟨place, hopen, hs⟩ := s.exists_of_tokens_eq hs
    obtain ⟨place', hclose, hs⟩ := s.next.exists_of_tokens_eq hs
    refine ⟨s.next.next, hs, fun absent => ?_⟩
    rw [value, hopen]
    simp only
    rw [Loose.fields, hclose]
    rfl
  | cons p fields =>
    simp only [tokensOf, List.length_cons, List.length_append] at hrounds
    obtain ⟨rounds, rfl⟩ := Nat.exists_eq_add_of_le' (show 1 ≤ rounds by omega)
    simp only [tokensOf, List.cons_append, List.append_assoc] at hs
    obtain ⟨place, hopen, hs⟩ := s.exists_of_tokens_eq hs
    obtain ⟨s', hrest, hfields⟩ := fields_of_tokens h rounds (by omega) hs place
    refine ⟨s', hrest, fun absent => ?_⟩
    rw [value, hopen]
    simp only [hfields]
    rfl

lemma isReadBack_of_token {j : Json} {t : Token} (htokens : tokensOf j = [t])
    (hvalue : ∀ rounds absent place (s : Stream), s.lexemes = ⟨t, place⟩ :: s.next.lexemes →
      value (rounds + 1) absent s = .ok (j, s.next)) : IsReadBack j := by
  intro rounds s rest hrounds hs
  rw [htokens] at hs hrounds
  obtain ⟨rounds, rfl⟩ := Nat.exists_eq_add_of_le' hrounds
  obtain ⟨place, hlexemes, hnext⟩ := s.exists_of_tokens_eq hs
  exact ⟨s.next, hnext, fun absent => hvalue rounds absent place s hlexemes⟩

/-- **Whole and sorted values are read back from their tokens.** -/
lemma isReadBack {j : Json} (hwhole : j.IsWhole) (hsorted : j.IsSorted) : IsReadBack j := by
  induction hwhole with
  | null =>
    refine isReadBack_of_token (by rw [tokensOf]) fun rounds absent place s h => ?_
    rw [value, h]
  | bool b =>
    refine isReadBack_of_token (by rw [tokensOf]) fun rounds absent place s h => ?_
    rw [value, h]
  | int n hlow hhigh =>
    refine isReadBack_of_token (by rw [tokensOf]) fun rounds absent place s h => ?_
    rw [value, h]
    simp only [numberValue_integer hlow hhigh]
  | str s =>
    refine isReadBack_of_token (by rw [tokensOf]) fun rounds absent place s h => ?_
    rw [value, h]
  | arr items _ ih =>
    cases hsorted with
    | arr _ hitems =>
      exact isReadBack_arr fun x hx => ih x hx (hitems x hx)
  | obj fields _ ih =>
    cases hsorted with
    | obj _ hfields hvalues =>
      intro rounds s rest hrounds hs
      have hread := value_obj_of_tokens (fun p hp => ih p hp (hvalues p hp)) hrounds hs
      rwa [ofFields, Keyed.ofPairs_eq_self hfields] at hread

/-- **The object that a printed one is read as.**  Its fields are sorted, in whatever order they
were printed. -/
theorem parse_print {fields : List (String × Json)} (hwhole : ∀ p ∈ fields, p.2.IsWhole)
    (hsorted : ∀ p ∈ fields, p.2.IsSorted) :
    parse (Json.obj fields).print = .ok (some (ofFields fields)) := by
  have hread (p : String × Json) (hp : p ∈ fields) : IsReadBack p.2 :=
    isReadBack (hwhole p hp) (hsorted p hp)
  have hcut := lexemes_print (IsWhole.obj fields hwhole)
  unfold parse
  generalize lexemes (Json.obj fields).print.toList = cut at hcut
  obtain ⟨lexed, last⟩ := cut
  have htokens : Stream.tokens ⟨lexed, last⟩ = tokensOf (.obj fields) ++ [] := by
    rw [List.append_nil]
    exact hcut
  have hlength : (tokensOf (.obj fields)).length = lexed.length := by
    rw [← hcut, List.length_map]
  have hrounds : (tokensOf (.obj fields)).length ≤ 2 * lexed.length + 2 := by omega
  obtain ⟨s', hrest, hvalue⟩ := value_obj_of_tokens hread hrounds htokens
  have hdone : s'.lexemes = [] := List.map_eq_nil_iff.mp hrest
  cases lexed with
  | nil => exact absurd hlength (Nat.ne_of_gt (length_tokensOf_pos _))
  | cons lexeme more =>
    simp only [hvalue, bind, Except.bind]
    rw [hdone]
    rfl

end Loose

end SheetLint.Json
