/-!
# Texts as lists of characters

What stylesheets, ignore rules, paths and documents need of texts: blanks and trimming, cutting into
pieces, and places.

Blanks are the characters with the Unicode property `White_Space`.  Every place of this library that
speaks of blanks in a stylesheet, an ignore rule or a loose JSON document means this class, which is
larger than the ASCII blanks and does not grow with new versions of the standard.  Trimming is a
`dropWhile` at either end.

Texts are cut at a separating character, at a separating word and at line ends.  A cut loses no
character but the separators: `pieces` is undone by putting the separator back between the pieces.

Lines and columns count characters and start at one.
-/

namespace SheetLint.Text

/-! ## Blanks -/

/-- The characters with the property `White_Space`. -/
def isBlank (c : Char) : Bool :=
  let n := c.toNat
  (9 ≤ n && n ≤ 13) || n == 0x20 || n == 0x85 || n == 0xA0 || n == 0x1680 ||
    (0x2000 ≤ n && n ≤ 0x200A) || n == 0x2028 || n == 0x2029 || n == 0x202F || n == 0x205F ||
    n == 0x3000

/-- The text without its leading blanks. -/
def trimStart (cs : List Char) : List Char :=
  cs.dropWhile isBlank

/-- The text without its trailing blanks. -/
def trimEnd (cs : List Char) : List Char :=
  (trimStart cs.reverse).reverse

/-- The text without blanks at either end. -/
def trim (cs : List Char) : List Char :=
  trimEnd (trimStart cs)

example : isBlank '\u00a0' = true ∧ isBlank '\u200b' = false := by decide

example : trim [' ', 'a', ' ', 'b', '\t'] = ['a', ' ', 'b'] := by decide

/-! ## Pieces -/

/-- The text before the first character of the class, and the text behind it; `none` behind when
the class does not occur. -/
def breakAt (p : Char → Bool) : List Char → List Char × Option (List Char)
  | [] => ([], none)
  | c :: rest =>
    if p c then ([], some rest)
    else
      let (before, behind) := breakAt p rest
      (c :: before, behind)

/-- The pieces between the occurrences of a character.  There is always one piece more than
occurrences. -/
def pieces (separator : Char) : List Char → List (List Char)
  | [] => [[]]
  | c :: rest =>
    if c = separator then [] :: pieces separator rest
    else
      match pieces separator rest with
      | [] => [[c]]
      | piece :: more => (c :: piece) :: more

/-- The text behind `word`, when the text begins with it. -/
def behind? (word text : List Char) : Option (List Char) :=
  if word.isPrefixOf text then some (text.drop word.length) else none

/-- The text before the first occurrence of a nonempty word, or the whole text when it does not
occur. -/
def before (word : List Char) : List Char → List Char
  | [] => []
  | c :: rest => if word.isPrefixOf (c :: rest) then [] else c :: before word rest

/-- The text before the ending `ending`, when the text ends with it. -/
def without? (ending text : List Char) : Option (List Char) :=
  (behind? ending.reverse text.reverse).map List.reverse

/-- The number of UTF-8 bytes before the first occurrence of a word, `none` when it does not
occur. -/
def byteOffset? (word : List Char) : List Char → Option Nat
  | [] => if word.isEmpty then some 0 else none
  | c :: rest =>
    if word.isPrefixOf (c :: rest) then some 0
    else (byteOffset? word rest).map (· + c.utf8Size)

/-- One trailing carriage return less, if there is one. -/
private def withoutReturn (line : List Char) : List Char :=
  (without? ['\r'] line).getD line

/-- The lines of a text.  A newline ends a line, together with one carriage return right before
it; what follows the last newline is a line unless it is empty.  The last line keeps its carriage
return when no newline follows it. -/
def lines (text : List Char) : List (List Char) :=
  let cut := pieces '\n' text
  let ended := cut.dropLast.map withoutReturn
  match cut.getLast? with
  | none | some [] => ended
  | some rest => ended ++ [rest]

example : lines ['a', '\r', '\n', '\n', 'b', '\r'] = [['a'], [], ['b', '\r']] := by decide

example : before [' ', '-'] ['x', ' ', '-', 'y'] = ['x'] := by decide

/-! ## Places -/

/-- The place of a character in a text. -/
structure Place where
  line : Nat
  column : Nat
  deriving Repr, DecidableEq

namespace Place

/-- The place of the first character. -/
def start : Place := ⟨1, 1⟩

/-- The place of the character that follows `c`, when `c` stands at `p`. -/
def next (p : Place) (c : Char) : Place :=
  if c = '\n' then ⟨p.line + 1, 1⟩ else ⟨p.line, p.column + 1⟩

/-- The place behind a text that begins at `p`. -/
def behind (p : Place) (text : List Char) : Place :=
  text.foldl next p

end Place

end SheetLint.Text
