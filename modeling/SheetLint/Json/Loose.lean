import SheetLint.Json.Loose.Token
import SheetLint.Json.Number

/-!
# Reading loose JSON

The grammar over the tokens of `Loose.Token`.  Commas between items and fields may be missing, and
one may follow the last; a name is a string, a bare word or the spelling of a number.  A text of
blanks and comments holds no value.

A number that is too large to be one becomes the string of its spelling.
-/

namespace SheetLint.Json.Loose

open SheetLint.Text (Place)

/-- What is left of the tokens, and the place of the end of the text. -/
structure Stream where
  lexemes : List Lexeme
  last : Place

namespace Stream

/-- The place of the next token. -/
def place (s : Stream) : Place :=
  match s.lexemes with
  | [] => s.last
  | lexeme :: _ => lexeme.place

/-- The stream behind the next token. -/
def next (s : Stream) : Stream := { s with lexemes := s.lexemes.tail }

/-- Stops with a defect at the next token.  If that token is a bad one, its own fault counts. -/
def fail {α : Type} (s : Stream) (defect : Defect) : Except Fault α :=
  match s.lexemes with
  | ⟨.bad fault, _⟩ :: _ => .error fault
  | _ => .error ⟨defect, s.place⟩

/-- The stream behind a comma, if one is next. -/
def skipComma (s : Stream) : Stream :=
  match s.lexemes with
  | ⟨.comma, _⟩ :: _ => s.next
  | _ => s

/-- The stream behind a colon. -/
def colon (s : Stream) : Except Fault Stream :=
  match s.lexemes with
  | ⟨.colon, _⟩ :: _ => .ok s.next
  | _ => s.fail .expectedColon

end Stream

/-- The largest integer that hexadecimal digits may name. -/
def hexLimit : Nat := 0x7fffffffffffffff

/-- The value of a number's spelling. -/
def numberValue (spelling : String) : Json :=
  let (negative, magnitude) :=
    match spelling.toList with
    | '-' :: rest => (true, rest)
    | '+' :: rest => (false, rest)
    | chars => (false, chars)
  match magnitude with
  | '0' :: 'x' :: digits | '0' :: 'X' :: digits =>
    match Decimal.hexNumber? digits with
    | some n =>
      if n ≤ hexLimit then .int (if negative then -n else n) else .str spelling
    | none => .str spelling
  | _ =>
    match Number.unsigned negative (.ofText magnitude) with
    | .ok (j, _) => j
    | .error _ => .str spelling

mutual

/-- Reads a value, in at most `rounds` steps; `absent` is the defect when there is none. -/
def value : Nat → Fault → Stream → Except Fault (Json × Stream)
  | 0, absent, _ => .error absent
  | rounds + 1, absent, s =>
    match s.lexemes with
    | [] => .error absent
    | ⟨token, place⟩ :: _ =>
      match token with
      | .openBrace => do
        let (fields, s) ← fields rounds place s.next
        .ok (Json.ofFields fields, s)
      | .openBracket => do
        let (items, s) ← items rounds place s.next
        .ok (.arr items, s)
      | .null => .ok (.null, s.next)
      | .bool b => .ok (.bool b, s.next)
      | .string text => .ok (.str text, s.next)
      | .number spelling => .ok (numberValue spelling, s.next)
      | .word _ => s.fail .unexpectedWord
      | .closeBrace => s.fail .unexpectedCloseBrace
      | .closeBracket => s.fail .unexpectedCloseBracket
      | .comma => s.fail .unexpectedComma
      | .colon => s.fail .unexpectedColon
      | .bad fault => .error fault

/-- Reads the items of an array that began at `opened`, and its closing bracket. -/
def items : Nat → Place → Stream → Except Fault (List Json × Stream)
  | 0, opened, _ => .error ⟨.unterminatedArray, opened⟩
  | rounds + 1, opened, s =>
    match s.lexemes with
    | ⟨.closeBracket, _⟩ :: _ => .ok ([], s.next)
    | _ => do
      let (item, s) ← value rounds ⟨.unterminatedArray, opened⟩ s
      let (more, s) ← items rounds opened s.skipComma
      .ok (item :: more, s)

/-- Reads the fields of an object that began at `opened`, and its closing brace. -/
def fields : Nat → Place → Stream → Except Fault (List (String × Json) × Stream)
  | 0, opened, _ => .error ⟨.unterminatedObject, opened⟩
  | rounds + 1, opened, s =>
    match s.lexemes with
    | [] => .error ⟨.unterminatedObject, opened⟩
    | ⟨.closeBrace, _⟩ :: _ => .ok ([], s.next)
    | ⟨.string name, _⟩ :: _ | ⟨.word name, _⟩ :: _ | ⟨.number name, _⟩ :: _ => do
      let s ← s.next.colon
      let (v, s) ← value rounds ⟨.expectedValue, s.place⟩ s
      let (more, s) ← fields rounds opened s.skipComma
      .ok ((name, v) :: more, s)
    | _ => s.fail .unexpectedInObject

end

/-- The value that a text of loose JSON holds, or `none` when it holds nothing but blanks and
comments. -/
def parse (text : String) : Except Fault (Option Json) :=
  let (lexemes, last) := lexemes text.toList
  match lexemes with
  | [] => .ok none
  | _ => do
    let (j, s) ← value (2 * lexemes.length + 2) ⟨.expectedValue, last⟩ ⟨lexemes, last⟩
    if s.lexemes.isEmpty then .ok (some j) else s.fail .severalValues

end SheetLint.Json.Loose
