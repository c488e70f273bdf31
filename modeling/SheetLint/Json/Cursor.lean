/-!
# Positions in a JSON text

Lines are counted from one, columns are the number of bytes since the line began, so that the
column of a cursor is the one-based column of the byte before it.  Only a newline ends a line.
-/

namespace SheetLint.Json

/-- A position between two bytes. -/
structure Pos where
  line : Nat
  column : Nat
  deriving Repr, DecidableEq

/-- The position behind `n` bytes of a character at `p`. -/
def Pos.into (p : Pos) (n : Nat) (c : Char) : Pos :=
  if c = '\n' then ⟨p.line + 1, 0⟩ else ⟨p.line, p.column + n⟩

/-- The position behind a character. -/
def Pos.behind (p : Pos) (c : Char) : Pos := p.into c.utf8Size c

/-- What is left of a text, and where it begins. -/
structure Cursor where
  pos : Pos
  rest : List Char

namespace Cursor

/-- The cursor before the first character of a text. -/
def ofText (text : List Char) : Cursor := ⟨⟨1, 0⟩, text⟩

/-- The position behind the next byte, or the end. -/
def peekPos (c : Cursor) : Pos :=
  match c.rest with
  | [] => c.pos
  | x :: _ => c.pos.into 1 x

/-- The cursor behind the next character. -/
def next (c : Cursor) : Cursor :=
  match c.rest with
  | [] => c
  | x :: rest => ⟨c.pos.behind x, rest⟩

/-- The cursor behind the blanks of JSON. -/
def skipBlanks (c : Cursor) : Cursor :=
  go c.pos c.rest
where
  /-- Skips the blanks at the front of `rest`. -/
  go (pos : Pos) : List Char → Cursor
    | [] => ⟨pos, []⟩
    | x :: rest =>
      if x = ' ' ∨ x = '\t' ∨ x = '\n' ∨ x = '\r' then go (pos.behind x) rest
      else ⟨pos, x :: rest⟩

/-- The cursor behind `n` bytes, when that many are left.  Where it ends inside a character, only
its position is meant. -/
def skipBytes (c : Cursor) (n : Nat) : Option Cursor :=
  go n c.pos c.rest
where
  /-- Skips `n` bytes of `rest`. -/
  go : Nat → Pos → List Char → Option Cursor
    | 0, pos, rest => some ⟨pos, rest⟩
    | _ + 1, _, [] => none
    | n + 1, pos, x :: rest =>
      if x.utf8Size ≤ n + 1 then go (n + 1 - x.utf8Size) (pos.behind x) rest
      else some ⟨pos.into (n + 1) x, rest⟩

end Cursor

end SheetLint.Json
