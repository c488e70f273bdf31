import SheetLint.Decimal
import SheetLint.Json.Fault

/-!
# Reading strings

The readers here start behind the opening quote and end behind the closing one.  They read one
character at a time; what an escape needs to remember is a mode.  The four digits of a numeric
escape are checked as soon as it begins, so that a mode in its midst only meets digits.

A numeric escape names a UTF-16 unit: two of them in a row can name one character, and one half of
such a pair alone is refused.  Skipping a string checks its form only.
-/

namespace SheetLint.Json

namespace Text

/-- What the next character of a string is part of. -/
inductive Mode where
  | plain
  /-- Behind a backslash. -/
  | escape
  /-- In a numeric escape with `left` digits to come; `high` is the first half of a pair. -/
  | hex (left : Nat) (value : Nat) (high : Option Nat)
  /-- Behind the first half of a pair. -/
  | pair (high : Nat)
  /-- Behind the first half of a pair and a backslash. -/
  | pairEscape (high : Nat)

/-- The character that a letter names behind a backslash. -/
def named? (c : Char) : Option Char :=
  if c = '\x22' ∨ c = '\\' ∨ c = '/' then some c
  else if c = 'b' then some '\x08'
  else if c = 'f' then some '\x0c'
  else if c = 'n' then some '\n'
  else if c = 'r' then some '\r'
  else if c = 't' then some '\t'
  else none

/-- Whether the unit is the first half of a pair. -/
def isHigh (n : Nat) : Bool := 0xD800 ≤ n && n ≤ 0xDBFF

/-- Whether the unit is the second half of a pair. -/
def isLow (n : Nat) : Bool := 0xDC00 ≤ n && n ≤ 0xDFFF

/-- The character of a pair. -/
def ofPair (high low : Nat) : Char :=
  Char.ofNat ((high - 0xD800) * 0x400 + (low - 0xDC00) + 0x10000)

/-- Refuses a text in which four hexadecimal digits are not next. -/
def checkHex (c : Cursor) : Except Fault Unit :=
  match c.skipBytes 4 with
  | none => .error ⟨.endInString, c.rest.foldl Pos.behind c.pos⟩
  | some behind =>
    let four := c.rest.take 4
    if four.length = 4 ∧ four.all fun x => (Decimal.hexValue? x).isSome then .ok ()
    else behind.fail .invalidEscape

/-- Reads a string; `read` is what it holds so far, in reverse. -/
def readFrom (read : List Char) (mode : Mode) (pos : Pos) :
    List Char → Except Fault (List Char × Cursor)
  | [] => .error ⟨.endInString, pos⟩
  | c :: rest =>
    match mode with
    | .plain =>
      if c = '\x22' then .ok (read.reverse, ⟨pos.behind c, rest⟩)
      else if c = '\\' then readFrom read .escape (pos.behind c) rest
      else if c.toNat < 0x20 then .error ⟨.controlCharacter, pos.into 1 c⟩
      else readFrom (c :: read) .plain (pos.behind c) rest
    | .escape =>
      match named? c with
      | some x => readFrom (x :: read) .plain (pos.behind c) rest
      | none =>
        if c = 'u' then do
          checkHex ⟨pos.behind c, rest⟩
          readFrom read (.hex 4 0 none) (pos.behind c) rest
        else .error ⟨.invalidEscape, pos.into 1 c⟩
    | .hex left value high =>
      let value := 16 * value + (Decimal.hexValue? c).getD 0
      if 1 < left then readFrom read (.hex (left - 1) value high) (pos.behind c) rest
      else
        match high with
        | none =>
          if isLow value then .error ⟨.loneSurrogate, pos.behind c⟩
          else if isHigh value then readFrom read (.pair value) (pos.behind c) rest
          else readFrom (Char.ofNat value :: read) .plain (pos.behind c) rest
        | some high =>
          if isLow value then
            readFrom (ofPair high value :: read) .plain (pos.behind c) rest
          else .error ⟨.loneSurrogate, pos.behind c⟩
    | .pair high =>
      if c = '\\' then readFrom read (.pairEscape high) (pos.behind c) rest
      else .error ⟨.shortSurrogatePair, pos.into 1 c⟩
    | .pairEscape high =>
      if c = 'u' then do
        checkHex ⟨pos.behind c, rest⟩
        readFrom read (.hex 4 0 (some high)) (pos.behind c) rest
      else .error ⟨.shortSurrogatePair, pos.into 1 c⟩

/-- Reads a string behind its opening quote. -/
def read : Reader String := fun c => do
  let (chars, c) ← readFrom [] .plain c.pos c.rest
  .ok (String.ofList chars, c)

/-- Skips a string; `escaped` tells whether a backslash was read last. -/
def skipFrom (escaped : Bool) (pos : Pos) : List Char → Except Fault Cursor
  | [] => .error ⟨.endInString, pos⟩
  | c :: rest =>
    if escaped then
      if (named? c).isSome then skipFrom false (pos.behind c) rest
      else if c = 'u' then do
        checkHex ⟨pos.behind c, rest⟩
        skipFrom false (pos.behind c) rest
      else .error ⟨.invalidEscape, pos.into 1 c⟩
    else if c = '\x22' then .ok ⟨pos.behind c, rest⟩
    else if c = '\\' then skipFrom true (pos.behind c) rest
    else if c.toNat < 0x20 then .error ⟨.controlCharacter, pos⟩
    else skipFrom false (pos.behind c) rest

/-- Skips a string behind its opening quote. -/
def skip (c : Cursor) : Except Fault Cursor :=
  skipFrom false c.pos c.rest

end Text

end SheetLint.Json
