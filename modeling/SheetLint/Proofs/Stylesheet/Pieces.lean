import Mathlib.Tactic.Lemma
import SheetLint.Stylesheet.Scan

/-!
# The pieces of a source

What the scan is compared with: a source cut from left to right into comments, strings, escapes and
single characters, the place of each piece, and what the pieces say about a source.  Nothing here
asks the scan: a piece is found by looking for its end in the text, braces are counted, and the
dialects and characters that make a difference are named.

A block comment reaches up to the first `*/`, whose star is not that of the opening; a string up to
the next unescaped quote.  A line comment begins at the start, behind a comment, and behind a single
blank or one of `;{},`; a blank that is escaped is not a single character.  In plain CSS no line
comment begins anywhere.

Comments and strings that do not end are pieces of their own kinds, and reach to the end of the
source.  A backslash and the character behind it are one piece, outside of strings; inside of a
string it only matters whether a quote is escaped.

Cutting loses nothing (`flatMap_source_cut`), so that the places of the pieces are places in the
source.

Braces count where they are single characters, so not in comments, strings and escapes.  `Balanced`
is said by counting in prefixes, with no stack.
-/

namespace SheetLint.Stylesheet

open Text (Place)

/-! ## Cutting -/

/-- A piece of a source. -/
inductive Piece where
  /-- A block comment, with what stands between its delimiters. -/
  | block (text : List Char)
  /-- A line comment without its two slashes. -/
  | line (text : List Char)
  /-- A string, with what stands between its quotes. -/
  | quoted (quote : Char) (text : List Char)
  /-- A backslash and the next character, if there is one. -/
  | escape (c : Option Char)
  | single (c : Char)
  /-- The opening of a block comment that never ends, and the rest of the source. -/
  | openBlock (text : List Char)
  /-- The quote that opens a string that never ends, and the rest of the source. -/
  | openQuoted (quote : Char) (text : List Char)
  deriving Repr, DecidableEq

namespace Piece

/-- The characters of a piece. -/
def source : Piece → List Char
  | block text => '/' :: '*' :: (text ++ ['*', '/'])
  | line text => '/' :: '/' :: text
  | quoted quote text => quote :: (text ++ [quote])
  | escape c => '\\' :: c.toList
  | single c => [c]
  | openBlock text => '/' :: '*' :: text
  | openQuoted quote text => quote :: text

/-- Whether a line comment can begin right behind the piece. -/
def admitsLine : Piece → Bool
  | block _ | line _ => true
  | single c => Text.isBlank c || [';', '\x7b', '\x7d', ','].contains c
  | quoted .. | escape _ | openBlock _ | openQuoted .. => false

/-- The piece ends. -/
def IsClosed : Piece → Prop
  | openBlock _ | openQuoted .. => False
  | block _ | line _ | quoted .. | escape _ | single _ => True

/-- The comment that a piece at a place is. -/
def comment? (place : Place) : Piece → Option Comment
  | block text => some ⟨text, place.line, (place.behind ('/' :: '*' :: text)).line⟩
  | line text => some ⟨text, place.line, place.line⟩
  | quoted .. | escape _ | single _ | openBlock _ | openQuoted .. => none

end Piece

/-- The text before the first `*/`, and the text behind it. -/
def blockEnd? : List Char → Option (List Char × List Char)
  | [] => none
  | c :: rest =>
    if c = '*' ∧ rest.head? = some '/' then some ([], rest.tail)
    else (blockEnd? rest).map fun (text, behind) => (c :: text, behind)

/-- The text before the first unescaped quote, and the text behind it; `escaped` tells whether a
backslash is right before the text. -/
def quoteEnd? (quote : Char) (escaped : Bool) : List Char → Option (List Char × List Char)
  | [] => none
  | c :: rest =>
    if c = quote ∧ !escaped then some ([], rest)
    else
      (quoteEnd? quote (c == '\\' && !escaped) rest).map fun (text, behind) => (c :: text, behind)

lemma blockEnd?_cons {c : Char} {rest : List Char} (h : ¬ (c = '*' ∧ rest.head? = some '/')) :
    blockEnd? (c :: rest) =
      (blockEnd? rest).map fun (text, behind) => (c :: text, behind) := by
  rw [blockEnd?, if_neg h]

lemma quoteEnd?_cons {quote c : Char} {escaped : Bool} {rest : List Char}
    (h : ¬ (c = quote ∧ (!escaped) = true)) :
    quoteEnd? quote escaped (c :: rest) =
      (quoteEnd? quote (c == '\\' && !escaped) rest).map
        fun (text, behind) => (c :: text, behind) := by
  rw [quoteEnd?, if_neg h]

lemma eq_of_blockEnd? {text inside behind : List Char}
    (h : blockEnd? text = some (inside, behind)) : text = inside ++ '*' :: '/' :: behind := by
  induction text generalizing inside with
  | nil => simp [blockEnd?] at h
  | cons c rest ih =>
    unfold blockEnd? at h
    split at h
    · rename_i hend
      obtain ⟨rfl, hslash⟩ := hend
      obtain ⟨tail, rfl⟩ := List.head?_eq_some_iff.1 hslash
      simp only [List.tail_cons, Option.some.injEq, Prod.mk.injEq] at h
      obtain ⟨rfl, rfl⟩ := h
      rfl
    · obtain ⟨⟨inside', behind'⟩, hrest, heq⟩ := Option.map_eq_some_iff.1 h
      simp only [Prod.mk.injEq] at heq
      obtain ⟨rfl, rfl⟩ := heq
      rw [ih hrest]
      rfl

lemma eq_of_quoteEnd? {quote : Char} {escaped : Bool} {text inside behind : List Char}
    (h : quoteEnd? quote escaped text = some (inside, behind)) :
    text = inside ++ quote :: behind := by
  induction text generalizing escaped inside with
  | nil => simp [quoteEnd?] at h
  | cons c rest ih =>
    unfold quoteEnd? at h
    split at h
    · rename_i hend
      simp only [Option.some.injEq, Prod.mk.injEq] at h
      obtain ⟨rfl, rfl⟩ := h
      rw [hend.1]
      rfl
    · obtain ⟨⟨inside', behind'⟩, hrest, heq⟩ := Option.map_eq_some_iff.1 h
      simp only [Prod.mk.injEq] at heq
      obtain ⟨rfl, rfl⟩ := heq
      rw [ih hrest]
      rfl

/-- **The pieces of a source.**  `mayOpen` tells whether a line comment can begin at its front. -/
def cut (d : Dialect) (mayOpen : Bool) (text : List Char) : List Piece :=
  match text with
  | [] => []
  | c :: rest =>
    if c = '/' ∧ rest.head? = some '*' then
      match _h : blockEnd? rest.tail with
      | some (text, behind) => .block text :: cut d (Piece.block text).admitsLine behind
      | none => [.openBlock rest.tail]
    else if c = '/' ∧ rest.head? = some '/' ∧ (d = .scss ∨ d = .less ∨ d = .sass) ∧ mayOpen then
      let text := rest.tail.takeWhile (· != '\n')
      .line text :: cut d (Piece.line text).admitsLine (rest.tail.dropWhile (· != '\n'))
    else if c = '\x22' ∨ c = '\x27' then
      match _h : quoteEnd? c false rest with
      | some (text, behind) => .quoted c text :: cut d (Piece.quoted c text).admitsLine behind
      | none => [.openQuoted c rest]
    else if c = '\\' then .escape rest.head? :: cut d (Piece.escape rest.head?).admitsLine rest.tail
    else .single c :: cut d (Piece.single c).admitsLine rest
termination_by text.length
decreasing_by
  · have hlength := congrArg List.length (eq_of_blockEnd? _h)
    simp only [List.length_tail, List.length_append, List.length_cons] at hlength ⊢
    omega
  · have hdrop := (List.dropWhile_sublist (· != '\n') (l := rest.tail)).length_le
    simp only [List.length_tail, List.length_cons] at hdrop ⊢
    omega
  · have hlength := congrArg List.length (eq_of_quoteEnd? _h)
    simp only [List.length_append, List.length_cons] at hlength ⊢
    omega
  · simp only [List.length_tail, List.length_cons]
    omega
  · simp

/-- **Cutting loses nothing.**  The pieces put together are the source. -/
theorem flatMap_source_cut (d : Dialect) (mayOpen : Bool) (text : List Char) :
    (cut d mayOpen text).flatMap Piece.source = text := by
  -- one case for each way in which a piece can begin and, for comments and strings, end
  fun_induction cut d mayOpen text with
  | case1 => rfl
  | case2 mayOpen c rest hopen inside behind h ih =>
    obtain ⟨rfl, hstar⟩ := hopen
    obtain ⟨tail, rfl⟩ := List.head?_eq_some_iff.1 hstar
    rw [List.flatMap_cons, ih]
    have heq := eq_of_blockEnd? h
    simp only [List.tail_cons] at heq
    simp [Piece.source, heq]
  | case3 mayOpen c rest hopen h =>
    obtain ⟨rfl, hstar⟩ := hopen
    obtain ⟨tail, rfl⟩ := List.head?_eq_some_iff.1 hstar
    simp [Piece.source]
  | case4 mayOpen c rest _ hopen inside ih =>
    obtain ⟨rfl, hslash, -, -⟩ := hopen
    obtain ⟨tail, rfl⟩ := List.head?_eq_some_iff.1 hslash
    rw [List.flatMap_cons, ih]
    simp [Piece.source, inside]
  | case5 mayOpen c rest _ _ _ inside behind h ih =>
    rw [List.flatMap_cons, ih, eq_of_quoteEnd? h]
    simp [Piece.source]
  | case6 mayOpen c rest _ _ _ h => simp [Piece.source]
  | case7 mayOpen rest _ _ _ ih =>
    rw [List.flatMap_cons, ih]
    cases rest <;> simp [Piece.source]
  | case8 mayOpen c rest _ _ _ _ ih =>
    rw [List.flatMap_cons, ih]
    simp [Piece.source]

/-! ## Places -/

/-- The pieces with their places, the first one being at `place`. -/
def locate (place : Place) : List Piece → List (Place × Piece)
  | [] => []
  | piece :: rest => (place, piece) :: locate (place.behind piece.source) rest

/-- The pieces of a source with their places. -/
def pieces (d : Dialect) (text : List Char) : List (Place × Piece) :=
  locate .start (cut d true text)

/-- The comments among pieces. -/
def commentsOf (ps : List (Place × Piece)) : List Comment :=
  ps.filterMap fun p => p.2.comment? p.1

/-! ## Braces -/

/-- The number of opening braces among single characters. -/
def opens (ps : List (Place × Piece)) : Nat := ps.countP fun p => p.2 = .single '\x7b'

/-- The number of closing braces among single characters. -/
def closes (ps : List (Place × Piece)) : Nat := ps.countP fun p => p.2 = .single '\x7d'

/-- Every closing brace has an opening one before it, `n` of which come before the pieces. -/
def NeverBelow (n : Nat) (ps : List (Place × Piece)) : Prop :=
  ∀ front, front <+: ps → closes front ≤ n + opens front

/-- The braces match. -/
def Balanced (ps : List (Place × Piece)) : Prop := NeverBelow 0 ps ∧ opens ps = closes ps

end SheetLint.Stylesheet
