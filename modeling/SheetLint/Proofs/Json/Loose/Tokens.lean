import SheetLint.Json.Loose.Token
import SheetLint.Proofs.Json.Printing

/-!
# The tokens of written values

The compact form of a value is also a text of loose JSON.  This module says how it is cut:
`tokensOf` lists the tokens of a value, and `isCutInto_compact` says that the compact form is cut
into just these, whatever follows it.

Two things have to be said of what follows.  A number and a word go on as far as they can, so that
the next character has to end them (`Ends`); and cutting counts rounds and places, which are of no
account for the tokens (`IsCutInto`).

A token is put in front of a text that is cut already, `IsCutInto.cons`, if the text begins with it
(`Begins`) and nothing is skipped in front of it: no blank, and no slash, which could open a
comment.  For each kind of token there is a lemma that says how it begins.

Strings are written with the escapes of JSON, all of which loose JSON knows as well and reads alike.

Doubles are left out: the numbers of the values here are integers (`IsWhole`).
-/

namespace SheetLint.Json

/-- **Whole values.**  Every number in the value is an integer of 64 bits, with or without a sign.
-/
inductive IsWhole : Json → Prop
  | null : IsWhole .null
  | bool (b : Bool) : IsWhole (.bool b)
  | int (n : ℤ) : -2 ^ 63 ≤ n → n < 2 ^ 64 → IsWhole (.int n)
  | str (s : String) : IsWhole (.str s)
  | arr (items : List Json) : (∀ x ∈ items, IsWhole x) → IsWhole (.arr items)
  | obj (fields : List (String × Json)) : (∀ p ∈ fields, IsWhole p.2) → IsWhole (.obj fields)

@[simp] lemma isWhole_str (s : String) : (Json.str s).IsWhole := .str s

@[simp] lemma isWhole_arr_iff {items : List Json} :
    (Json.arr items).IsWhole ↔ ∀ x ∈ items, x.IsWhole :=
  ⟨fun h => by cases h; assumption, .arr items⟩

@[simp] lemma isWhole_obj_iff {fields : List (String × Json)} :
    (Json.obj fields).IsWhole ↔ ∀ p ∈ fields, p.2.IsWhole :=
  ⟨fun h => by cases h; assumption, .obj fields⟩

namespace Loose

open SheetLint.Text (Place isBlank)

/-! ### Cutting a text -/

/-- **Cutting.**  The text is cut into these tokens, wherever it begins, once there are more rounds
than characters. -/
def IsCutInto (text : List Char) (tokens : List Token) : Prop :=
  ∀ rounds place, text.length < rounds →
    (lexemesFrom rounds ⟨place, text⟩).1.map Lexeme.token = tokens

/-- This is the first token of the text, with `rest` behind it, wherever the text begins. -/
def Begins (text : List Char) (t : Token) (rest : List Char) : Prop :=
  ∀ place, ∃ place', token ⟨place, text⟩ = .ok (t, ⟨place', rest⟩)

lemma isCutInto_nil : IsCutInto [] [] := by
  intro rounds place h
  obtain ⟨rounds, rfl⟩ := Nat.exists_eq_succ_of_ne_zero (Nat.ne_of_gt h)
  simp [lexemesFrom, skipSpace, Rest.span]

lemma skipSpace_cons {c : Char} (hblank : isBlank c = false) (hslash : c ≠ '/') (rounds : ℕ)
    (place : Place) (text : List Char) :
    skipSpace (rounds + 1) ⟨place, c :: text⟩ = .ok ⟨place, c :: text⟩ := by
  have hspan : Rest.span isBlank ⟨place, c :: text⟩ = ([], ⟨place, c :: text⟩) := by
    simp [Rest.span, hblank, Place.behind]
  unfold skipSpace
  simp only [hspan]
  split
  · next h => exact absurd (List.cons.inj h).1 hslash
  · next h => exact absurd (List.cons.inj h).1 hslash
  · next h => exact absurd (List.cons.inj h).1 hslash
  · rfl

/-- **One token.** -/
lemma IsCutInto.cons {rest : List Char} {tokens : List Token} (h : IsCutInto rest tokens)
    {c : Char} (hblank : isBlank c = false) (hslash : c ≠ '/') {more : List Char} {t : Token}
    (hbegins : Begins (c :: more ++ rest) t rest) :
    IsCutInto (c :: more ++ rest) (t :: tokens) := by
  intro rounds place hrounds
  obtain ⟨rounds, rfl⟩ := Nat.exists_eq_succ_of_ne_zero (Nat.ne_zero_of_lt hrounds)
  obtain ⟨place', htoken⟩ := hbegins place
  have hlength : rest.length < rounds := by
    simp only [List.length_append, List.length_cons] at hrounds
    omega
  have hrest := h rounds place' hlength
  rw [List.cons_append] at htoken ⊢
  simp only [lexemesFrom, skipSpace_cons hblank hslash, htoken]
  simp [hrest]

/-! ### What ends a token -/

/-- The text ends here, or goes on with what stands behind a value. -/
def Ends (text : List Char) : Prop :=
  ∀ c ∈ text.head?, c = ',' ∨ c = ']' ∨ c = '\x7d'

lemma ends_nil : Ends [] := by
  simp [Ends]

lemma Ends.head {text : List Char} (h : Ends text) {p : Char → Bool} (hcomma : p ',' = false)
    (hbracket : p ']' = false) (hbrace : p '\x7d' = false) : text.head?.any p = false := by
  cases text with
  | nil => rfl
  | cons c text =>
    rcases h c rfl with rfl | rfl | rfl
    · exact hcomma
    · exact hbracket
    · exact hbrace

/-- A text does not begin with a character that goes on with a token. -/
lemma Ends.ne_cons {text : List Char} (h : Ends text) {c : Char} (hc : c ∉ [',', ']', '\x7d'])
    (rest : List Char) : text ≠ c :: rest := by
  rintro rfl
  exact hc (by simpa using h c rfl)

lemma ends_compactItems (items : List Json) (rest : List Char) :
    Ends (compactItems items ++ rest) := by
  cases items <;> simp [compactItems, Ends]

lemma ends_compactFields (fields : List (String × Json)) (rest : List Char) :
    Ends (compactFields fields ++ rest) := by
  cases fields <;> simp [compactFields, Ends]

/-! ### Words -/

/-- **The three words of JSON.** -/
lemma IsCutInto.word {rest : List Char} {tokens : List Token} (h : IsCutInto rest tokens)
    (hends : Ends rest) {word : String} {t : Token}
    (hword : (word, t) ∈ [("true", Token.bool true), ("false", .bool false), ("null", .null)]) :
    IsCutInto (word.toList ++ rest) (t :: tokens) := by
  obtain ⟨c, more, hchars, hblank, hslash, hbegins⟩ : ∃ c more, word.toList = c :: more ∧
      isBlank c = false ∧ c ≠ '/' ∧ Begins (word.toList ++ rest) t rest := by
    simp only [List.mem_cons, Prod.mk.injEq, List.not_mem_nil, or_false] at hword
    rcases hword with ⟨rfl, rfl⟩ | ⟨rfl, rfl⟩ | ⟨rfl, rfl⟩
    all_goals
      refine ⟨_, _, rfl, by decide, by decide, fun place => ?_⟩
      cases rest with
      | nil => exact ⟨_, rfl⟩
      | cons c rest => rcases hends c rfl with rfl | rfl | rfl <;> exact ⟨_, rfl⟩
  rw [hchars] at hbegins ⊢
  exact h.cons hblank hslash hbegins

/-! ### Numbers -/

lemma takeWhile_dropWhile_isDigit {digits rest : List Char} (hdigits : Decimal.AllDigits digits)
    (hrest : rest.head?.any Char.isDigit = false) :
    (digits ++ rest).takeWhile Char.isDigit = digits ∧
      (digits ++ rest).dropWhile Char.isDigit = rest := by
  have htaken : rest.takeWhile Char.isDigit = [] ∧ rest.dropWhile Char.isDigit = rest := by
    cases rest with
    | nil => exact ⟨rfl, rfl⟩
    | cons c rest => simpa using hrest
  constructor
  · rw [List.takeWhile_append_of_pos hdigits, htaken.1, List.append_nil]
  · rw [List.dropWhile_append_of_pos hdigits, htaken.2]

lemma Ends.someDigits {rest : List Char} (hends : Ends rest) {digits : List Char}
    (hdigits : Decimal.AllDigits digits) (place : Place) :
    Rest.span Char.isDigit ⟨place, digits ++ rest⟩ =
      (digits, ⟨place.behind digits, rest⟩) := by
  obtain ⟨htake, hdrop⟩ := takeWhile_dropWhile_isDigit hdigits
    (hends.head (by decide) (by decide) (by decide))
  simp only [Rest.span, htake, hdrop]

lemma Ends.fraction_exponent {rest : List Char} (hends : Ends rest) (place : Place) :
    fraction ⟨place, rest⟩ = .ok ([], ⟨place, rest⟩) ∧
      exponent ⟨place, rest⟩ = .ok ([], ⟨place, rest⟩) := by
  cases rest with
  | nil => exact ⟨rfl, rfl⟩
  | cons c rest =>
    rcases hends c rfl with rfl | rfl | rfl <;>
      cases rest <;> exact ⟨by simp [fraction], by simp [exponent]⟩

/-- A number goes on neither with `x` nor with digits behind its leading zero. -/
lemma Ends.not_hex {rest : List Char} (hends : Ends rest) (n : ℕ) {x : Char}
    (hx : x = 'x' ∨ x = 'X') (text : List Char) : Decimal.natural n ++ rest ≠ '0' :: x :: text := by
  intro h
  obtain rfl | hn := eq_or_ne n 0
  · refine hends.ne_cons (c := x) ?_ text (List.cons.inj h).2
    rcases hx with rfl | rfl <;> decide
  · obtain ⟨c, digits, hnatural, -⟩ := Decimal.startsWithDigit_natural n
    rw [hnatural] at h
    exact Decimal.natural_ne_zero_cons hn digits (by rw [hnatural, (List.cons.inj h).1])

lemma magnitude_natural (n : ℕ) {rest : List Char} (hends : Ends rest) (place : Place) :
    ∃ place', magnitude ⟨place, Decimal.natural n ++ rest⟩ =
      .ok (Decimal.natural n, ⟨place', rest⟩) := by
  unfold magnitude
  split
  · next text h => exact absurd h (hends.not_hex n (Or.inl rfl) text)
  · next text h => exact absurd h (hends.not_hex n (Or.inr rfl) text)
  obtain rfl | hn := eq_or_ne n 0
  · -- the digits of zero are the one that nothing but a point or an exponent follows
    obtain ⟨hfraction, hexponent⟩ := hends.fraction_exponent (place.next '0')
    refine ⟨place.next '0', ?_⟩
    simp [Decimal.natural, Rest.next, bind, Except.bind, hfraction, hexponent]
  · obtain ⟨hfraction, hexponent⟩ := hends.fraction_exponent (place.behind (Decimal.natural n))
    have hspan := hends.someDigits (Decimal.allDigits_natural n) place
    obtain ⟨c, digits, hnatural, -⟩ := Decimal.startsWithDigit_natural n
    have hc : c ≠ '0' := by
      rintro rfl
      exact Decimal.natural_ne_zero_cons hn digits hnatural
    refine ⟨place.behind (Decimal.natural n), ?_⟩
    rw [hnatural] at hspan hfraction hexponent ⊢
    rw [List.cons_append] at hspan ⊢
    simp [hc, hspan, bind, Except.bind, hfraction, hexponent]

lemma token_eq_number {c : Char} (hc : c = '-' ∨ c.isDigit = true) (place : Place)
    (text : List Char) : token ⟨place, c :: text⟩ = number ⟨place, c :: text⟩ := by
  have hne {d : Char} (hminus : d ≠ '-') (hdigit : d.isDigit = false) : c ≠ d := by
    rintro rfl
    rcases hc with h | h
    · exact hminus h
    · simp [hdigit] at h
  have hquote : ¬ (c = '\x27' ∨ c = '\x22') :=
    not_or.mpr ⟨hne (by decide) (by decide), hne (by decide) (by decide)⟩
  have hnumber : c = '-' ∨ c = '+' ∨ c.isDigit = true := hc.imp_right Or.inr
  -- The punctuation is tried first, and neither a minus nor a digit is one of it.
  unfold token
  split
  iterate 6
    · next h => exact absurd (List.cons.inj h).1 (hne (by decide) (by decide))
  · next h =>
    obtain ⟨rfl, rfl⟩ := List.cons.inj h
    rw [if_neg hquote, if_pos hnumber]
  · next h => exact absurd h (List.cons_ne_nil c text)

lemma ne_sign_of_isDigit {c : Char} (h : c.isDigit = true) : c ≠ '-' ∧ c ≠ '+' := by
  constructor <;> rintro rfl <;> exact absurd h (by decide)

/-- **A written integer is a number with its spelling.** -/
lemma begins_integer (n : ℤ) {rest : List Char} (hends : Ends rest) :
    Begins (Decimal.integer n ++ rest) (.number (String.ofList (Decimal.integer n))) rest := by
  have hhead (n : ℕ) : (Decimal.natural n ++ rest).head?.any Char.isDigit = true := by
    obtain ⟨c, digits, hnatural, hc⟩ := Decimal.startsWithDigit_natural n
    simp [hnatural, hc]
  intro place
  cases n with
  | ofNat n =>
    obtain ⟨place', hmagnitude⟩ := magnitude_natural n hends place
    obtain ⟨c, digits, hnatural, hc⟩ := Decimal.startsWithDigit_natural n
    have hsign := ne_sign_of_isDigit hc
    refine ⟨place', ?_⟩
    rw [Decimal.integer]
    rw [hnatural, List.cons_append] at hmagnitude ⊢
    rw [token_eq_number (Or.inr hc)]
    simp [number, hsign.1, hsign.2, hc, hmagnitude, bind, Except.bind]
  | negSucc n =>
    obtain ⟨place', hmagnitude⟩ := magnitude_natural (n + 1) hends (place.next '-')
    refine ⟨place', ?_⟩
    rw [Decimal.integer, List.cons_append, token_eq_number (Or.inl rfl)]
    simp only [number, Rest.next, hhead, if_true, hmagnitude]
    rfl

lemma isBlank_of_isDigit {c : Char} (h : c.isDigit = true) : isBlank c = false := by
  have hrange : 48 ≤ c.toNat ∧ c.toNat ≤ 57 := by
    simpa [Char.isDigit, UInt32.le_iff_toNat_le] using h
  simp only [isBlank, Bool.or_eq_false_iff, Bool.and_eq_false_iff, decide_eq_false_iff_not,
    beq_eq_false_iff_ne]
  omega

/-- A written integer begins with a character that no space is skipped before. -/
lemma exists_integer_eq_cons (n : ℤ) :
    ∃ c more, Decimal.integer n = c :: more ∧ isBlank c = false ∧ c ≠ '/' := by
  cases n with
  | ofNat n =>
    obtain ⟨c, digits, hnatural, hc⟩ := Decimal.startsWithDigit_natural n
    refine ⟨c, digits, hnatural, isBlank_of_isDigit hc, ?_⟩
    rintro rfl
    exact absurd hc (by decide)
  | negSucc n => exact ⟨'-', _, rfl, by decide, by decide⟩

/-! ### Strings -/

lemma stringFrom_control {c : Char} (h : c.toNat < 0x20) (opened : Place) (read : List Char)
    (place : Place) (rest : List Char) :
    ∃ place', stringFrom '\x22' opened read .plain place
        ('\\' :: 'u' :: '0' :: '0' :: Nat.digitChar (c.toNat / 16) ::
          Nat.digitChar (c.toNat % 16) :: rest) =
      stringFrom '\x22' opened (c :: read) .plain place' rest := by
  have hhigh := hexValue?_digitChar (n := c.toNat / 16) (by omega)
  have hlow := hexValue?_digitChar (n := c.toNat % 16) (by omega)
  have hzero : Decimal.hexValue? '0' = some 0 := rfl
  have hunit : hexNumber ['0', '0', Nat.digitChar (c.toNat / 16), Nat.digitChar (c.toNat % 16)] =
      c.toNat := by
    have hvalue : 16 * (c.toNat / 16) + c.toNat % 16 = c.toNat := by omega
    simp [hexNumber, Decimal.hexNumber?, hzero, hhigh, hlow, hvalue]
  obtain ⟨hisHigh, hisLow⟩ := not_half_of_control h
  exact ⟨_, by simp [stringFrom, isHexDigit, hzero, hhigh, hlow, hunit, hisLow, hisHigh]; rfl⟩

lemma stringFrom_escape (c : Char) (opened : Place) (read : List Char) (place : Place)
    (rest : List Char) :
    ∃ place', stringFrom '\x22' opened read .plain place (escape c ++ rest) =
      stringFrom '\x22' opened (c :: read) .plain place' rest := by
  rcases escape_cases c with ⟨d, hescape, hd⟩ | ⟨hcontrol, hescape⟩ | ⟨hescape, hquote, hslash, -⟩
  · refine ⟨(place.next '\\').next d, ?_⟩
    have hu : d ≠ 'u' := by
      rintro rfl
      cases hd
    have hsingle : d ≠ '\x27' := by
      rintro rfl
      cases hd
    rw [hescape]
    by_cases hdouble : d = '\x22'
    · subst hdouble
      obtain rfl : '\x22' = c := Option.some.inj hd
      simp [stringFrom]
    · simp [stringFrom, hu, hsingle, hdouble, hd]
  · rw [hescape]
    exact stringFrom_control hcontrol opened read place rest
  · refine ⟨place.next c, ?_⟩
    rw [hescape]
    simp [stringFrom, hquote, hslash]

/-- A written string is read back, and what follows it is left. -/
lemma stringFrom_escaped (s : List Char) (opened : Place) (read : List Char) (place : Place)
    (rest : List Char) :
    ∃ place', stringFrom '\x22' opened read .plain place (s.flatMap escape ++ '\x22' :: rest) =
      .ok (.string (String.ofList (read.reverse ++ s)), ⟨place', rest⟩) := by
  induction s generalizing read place with
  | nil => exact ⟨place.next '\x22', by simp [stringFrom]⟩
  | cons c s ih =>
    obtain ⟨p, hp⟩ := stringFrom_escape c opened read place (s.flatMap escape ++ '\x22' :: rest)
    obtain ⟨p', hp'⟩ := ih (c :: read) p
    refine ⟨p', ?_⟩
    rw [List.flatMap_cons, List.append_assoc, hp, hp']
    simp

/-- **A written string is one token.** -/
lemma begins_quote (s : String) (rest : List Char) :
    Begins (quote s.toList ++ rest) (.string s) rest := by
  intro place
  obtain ⟨place', h⟩ := stringFrom_escaped s.toList place [] (place.next '\x22') rest
  refine ⟨place', ?_⟩
  have htext : quote s.toList ++ rest =
      '\x22' :: (s.toList.flatMap escape ++ '\x22' :: rest) := by
    simp [quote]
  rw [List.reverse_nil, List.nil_append, String.ofList_toList] at h
  rw [htext]
  simp [token, h]

/-! ### Values -/

mutual

/-- The tokens of a value. -/
def tokensOf : Json → List Token
  | .null => [.null]
  | .bool b => [.bool b]
  | .int n => [.number (String.ofList (Decimal.integer n))]
  | .float x => [.number (String.ofList (Decimal.jsonLayout.float x))]
  | .str s => [.string s]
  | .arr [] => [.openBracket, .closeBracket]
  | .arr (x :: xs) => .openBracket :: (tokensOf x ++ itemTokens xs)
  | .obj [] => [.openBrace, .closeBrace]
  | .obj ((k, v) :: fields) =>
    .openBrace :: .string k :: .colon :: (tokensOf v ++ fieldTokens fields)

/-- The tokens of the items behind the first one, and of the end of the array. -/
def itemTokens : List Json → List Token
  | [] => [.closeBracket]
  | x :: xs => .comma :: (tokensOf x ++ itemTokens xs)

/-- The tokens of the fields behind the first one, and of the end of the object. -/
def fieldTokens : List (String × Json) → List Token
  | [] => [.closeBrace]
  | (k, v) :: fields => .comma :: .string k :: .colon :: (tokensOf v ++ fieldTokens fields)

end

/-- The compact form of the value is cut into its tokens, whatever follows that ends it. -/
def IsCutAsWritten (j : Json) : Prop :=
  ∀ ⦃rest : List Char⦄ ⦃tokens : List Token⦄, Ends rest → IsCutInto rest tokens →
    IsCutInto (compact j ++ rest) (tokensOf j ++ tokens)

lemma IsCutInto.sign {rest : List Char} {tokens : List Token} (h : IsCutInto rest tokens)
    {c : Char} {t : Token}
    (hsign : (c, t) ∈ [('\x7b', Token.openBrace), ('\x7d', .closeBrace), ('[', .openBracket),
      (']', .closeBracket), (',', .comma), (':', .colon)]) :
    IsCutInto (c :: rest) (t :: tokens) := by
  change IsCutInto ([c] ++ rest) (t :: tokens)
  simp only [List.mem_cons, Prod.mk.injEq, List.not_mem_nil, or_false] at hsign
  rcases hsign with ⟨rfl, rfl⟩ | ⟨rfl, rfl⟩ | ⟨rfl, rfl⟩ | ⟨rfl, rfl⟩ | ⟨rfl, rfl⟩ | ⟨rfl, rfl⟩
  all_goals exact h.cons (by decide) (by decide) fun place => ⟨_, rfl⟩

lemma IsCutInto.name {rest : List Char} {tokens : List Token} (h : IsCutInto rest tokens)
    (k : String) :
    IsCutInto (quote k.toList ++ ':' :: rest) (.string k :: .colon :: tokens) := by
  have hcolon : IsCutInto (':' :: rest) (.colon :: tokens) := h.sign (by simp)
  have hquote := begins_quote k (':' :: rest)
  exact hcolon.cons (by decide) (by decide) hquote

lemma isCutInto_compactItems {items : List Json} (h : ∀ x ∈ items, IsCutAsWritten x)
    {rest : List Char} {tokens : List Token} (hcut : IsCutInto rest tokens) :
    IsCutInto (compactItems items ++ rest) (itemTokens items ++ tokens) := by
  induction items with
  | nil => exact hcut.sign (by simp)
  | cons x items ih =>
    obtain ⟨hx, hitems⟩ := List.forall_mem_cons.mp h
    simp only [compactItems, itemTokens, List.cons_append, List.append_assoc]
    exact (hx (ends_compactItems items rest) (ih hitems)).sign (by simp)

lemma isCutInto_compactFields {fields : List (String × Json)}
    (h : ∀ p ∈ fields, IsCutAsWritten p.2) {rest : List Char} {tokens : List Token}
    (hcut : IsCutInto rest tokens) :
    IsCutInto (compactFields fields ++ rest) (fieldTokens fields ++ tokens) := by
  induction fields with
  | nil => exact hcut.sign (by simp)
  | cons p fields ih =>
    obtain ⟨hp, hfields⟩ := List.forall_mem_cons.mp h
    simp only [compactFields, fieldTokens, List.cons_append, List.append_assoc]
    exact ((hp (ends_compactFields fields rest) (ih hfields)).name p.1).sign (by simp)

/-- **The compact form of a whole value is cut into the tokens of the value.** -/
theorem isCutInto_compact {j : Json} (h : j.IsWhole) : IsCutAsWritten j := by
  induction h with
  | null =>
    intro rest tokens hends hcut
    exact hcut.word hends (by simp)
  | bool b =>
    intro rest tokens hends hcut
    cases b with
    | true => exact hcut.word hends (by simp)
    | false => exact hcut.word hends (by simp)
  | int n _ _ =>
    intro rest tokens hends hcut
    obtain ⟨c, more, hinteger, hblank, hslash⟩ := exists_integer_eq_cons n
    have hbegins := begins_integer n hends
    rw [compact, tokensOf, List.singleton_append]
    rw [hinteger] at hbegins ⊢
    exact hcut.cons hblank hslash hbegins
  | str s =>
    intro rest tokens hends hcut
    exact hcut.cons (by decide) (by decide) (begins_quote s rest)
  | arr items _ ih =>
    intro rest tokens hends hcut
    cases items with
    | nil => exact IsCutInto.sign (hcut.sign (by simp)) (by simp)
    | cons x items =>
      obtain ⟨hx, hitems⟩ := List.forall_mem_cons.mp ih
      simp only [compact, tokensOf, List.cons_append, List.append_assoc]
      exact (hx (ends_compactItems items rest) (isCutInto_compactItems hitems hcut)).sign (by simp)
  | obj fields _ ih =>
    intro rest tokens hends hcut
    cases fields with
    | nil => exact IsCutInto.sign (hcut.sign (by simp)) (by simp)
    | cons p fields =>
      obtain ⟨hp, hfields⟩ := List.forall_mem_cons.mp ih
      have hvalue := hp (ends_compactFields fields rest) (isCutInto_compactFields hfields hcut)
      simp only [compact, tokensOf, List.cons_append, List.append_assoc]
      exact (hvalue.name p.1).sign (by simp)

/-- **The tokens of a printed value.** -/
theorem lexemes_print {j : Json} (h : j.IsWhole) :
    (lexemes j.print.toList).1.map Lexeme.token = tokensOf j := by
  have hcut := isCutInto_compact h ends_nil isCutInto_nil
  rw [List.append_nil, List.append_nil] at hcut
  rw [print, String.toList_ofList]
  exact hcut _ _ (Nat.lt_succ_self _)

end Loose

end SheetLint.Json
