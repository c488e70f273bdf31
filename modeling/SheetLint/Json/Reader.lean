import SheetLint.Json.Number
import SheetLint.Json.Text

/-!
# Reading JSON

The strict grammar of JSON: no comments, no trailing commas, no bare words.  Values may be nested
up to a limit, which is what the recursion of `value` runs on; the loops over items and fields run
on the number of characters that are left, since every round reads at least one.

`skip` passes over a value without building it.  It checks less than `value` does: numbers may be
too large, and halves of surrogate pairs may stand alone.
-/

namespace SheetLint.Json

/-- The number of arrays and objects that may enclose a value, plus one. -/
def depthLimit : Nat := 128

/-- Reads the rest of a word whose first letter has been read. -/
def word (letters : List Char) (c : Cursor) : Except Fault Cursor :=
  match letters with
  | [] => .ok c
  | x :: more =>
    match c.rest with
    | [] => c.fail .endInValue
    | y :: _ => if x = y then word more c.next else c.failPeek .expectedWord

/-- Reads one of the three words, a string or a number. -/
def scalar? (c : Cursor) : Option (Except Fault (Json × Cursor)) :=
  match c.rest with
  | 'n' :: _ => some ((word "ull".toList c.next).map (.null, ·))
  | 't' :: _ => some ((word "rue".toList c.next).map (.bool true, ·))
  | 'f' :: _ => some ((word "alse".toList c.next).map (.bool false, ·))
  | '\x22' :: _ => some ((Text.read c.next).map fun (s, c) => (.str s, c))
  | x :: _ => if x = '-' ∨ x.isDigit then some (Number.read c) else none
  | [] => none

/-- What stands before the next item of an array. -/
inductive ItemStart where
  | item
  | done

/-- Finds the next item of an array, or its closing bracket, which is not read. -/
def nextItem (first : Bool) (c : Cursor) : Except Fault (ItemStart × Cursor) :=
  let c := c.skipBlanks
  match c.rest with
  | [] => c.failPeek .endInList
  | x :: _ =>
    if x = ']' then .ok (.done, c)
    else if first then .ok (.item, c)
    else if x = ',' then
      let c := c.next.skipBlanks
      match c.rest with
      | [] => c.failPeek .endInValue
      | y :: _ => if y = ']' then c.failPeek .trailingComma else .ok (.item, c)
    else c.failPeek .expectedCommaOrBracket

/-- Finds the next field of an object and reads its name; `none` before the closing brace, which
is not read. -/
def nextKey (first : Bool) (c : Cursor) : Except Fault (Option String × Cursor) :=
  let c := c.skipBlanks
  match c.rest with
  | [] => c.failPeek .endInObject
  | x :: _ =>
    if x = '\x7d' then .ok (none, c)
    else if first then key c
    else if x = ',' then
      let c := c.next.skipBlanks
      match c.rest with
      | [] => c.failPeek .endInValue
      | y :: _ => if y = '\x7d' then c.failPeek .trailingComma else key c
    else c.failPeek .expectedCommaOrBrace
where
  /-- Reads a name. -/
  key (c : Cursor) : Except Fault (Option String × Cursor) :=
    match c.rest with
    | '\x22' :: _ => (Text.read c.next).map fun (s, c) => (some s, c)
    | _ => c.failPeek .keyNotString

/-- Reads the colon behind a name. -/
def colon (c : Cursor) : Except Fault Cursor :=
  let c := c.skipBlanks
  match c.rest with
  | ':' :: _ => .ok c.next
  | [] => c.failPeek .endInObject
  | _ => c.failPeek .expectedColon

/-- Reads the items of an array and its closing bracket, in at most `rounds` rounds. -/
def items {α : Type} (item : Reader α) :
    Nat → Bool → Cursor → Except Fault (List α × Cursor)
  | 0, _, c => c.fail .endInList
  | rounds + 1, first, c => do
    match ← nextItem first c with
    | (.done, c) => .ok ([], c.next)
    | (.item, c) =>
      let (x, c) ← item c
      let (xs, c) ← items item rounds false c
      .ok (x :: xs, c)

/-- Reads the fields of an object and its closing brace, in at most `rounds` rounds. -/
def fields {α : Type} (value : Reader α) :
    Nat → Bool → Cursor → Except Fault (List (String × α) × Cursor)
  | 0, _, c => c.fail .endInObject
  | rounds + 1, first, c => do
    match ← nextKey first c with
    | (none, c) => .ok ([], c.next)
    | (some key, c) =>
      let (x, c) ← value (← colon c)
      let (xs, c) ← fields value rounds false c
      .ok ((key, x) :: xs, c)

/-- Reads a value inside of fewer than `depth` arrays and objects. -/
def value : Nat → Reader Json
  | depth, c =>
    let c := c.skipBlanks
    match scalar? c with
    | some result => result
    | none =>
      match c.rest, depth with
      | [], _ => c.failPeek .endInValue
      | '[' :: _, 0 | '[' :: _, 1 | '\x7b' :: _, 0 | '\x7b' :: _, 1 => c.failPeek .tooDeep
      | '[' :: rest, depth + 1 =>
        (items (value depth) (rest.length + 1) true c.next).map fun (xs, c) => (.arr xs, c)
      | '\x7b' :: rest, depth + 1 =>
        (fields (value depth) (rest.length + 1) true c.next).map fun (xs, c) => (ofFields xs, c)
      | _ :: _, _ => c.failPeek .expectedValue

/-- Accepts the end of a text, with nothing left but blanks. -/
def finished (c : Cursor) : Except Fault Unit :=
  let c := c.skipBlanks
  if c.rest.isEmpty then .ok () else c.failPeek .trailingText

/-- Reads a whole text. -/
def readAll {α : Type} (reader : Reader α) (text : String) : Except Fault α := do
  let (x, c) ← reader (.ofText text.toList)
  finished c
  .ok x

/-- The value that a text of JSON holds. -/
def parse (text : String) : Except Fault Json :=
  readAll (value depthLimit) text

/-- An array or object that is being skipped. -/
inductive Frame where
  | array
  | object
  deriving DecidableEq

/-- Skips one of the three words, a string or a number. -/
def skipScalar (c : Cursor) : Except Fault Cursor :=
  match c.rest with
  | 'n' :: _ => word "ull".toList c.next
  | 't' :: _ => word "rue".toList c.next
  | 'f' :: _ => word "alse".toList c.next
  | '\x22' :: _ => Text.skip c.next
  | x :: _ => if x = '-' ∨ x.isDigit then Number.skip c else c.failPeek .expectedValue
  | [] => c.failPeek .endInValue

/-- Skips the name of a field and its colon. -/
def skipKey (c : Cursor) : Except Fault Cursor :=
  let c := c.skipBlanks
  match c.rest with
  | '\x22' :: _ => do
    let c := (← Text.skip c.next).skipBlanks
    match c.rest with
    | ':' :: _ => .ok c.next
    | [] => c.failPeek .endInObject
    | _ => c.failPeek .expectedColon
  | [] => c.failPeek .endInObject
  | _ => c.failPeek .keyNotString

/-- Where a skip is. -/
inductive SkipMode where
  /-- Before a value. -/
  | value
  /-- Behind the opening bracket or brace of the innermost frame. -/
  | opened
  /-- Behind a value. -/
  | closed

/-- Skips what is left of the values around the cursor, innermost frame first, in at most `rounds`
rounds. -/
def skipFrom : Nat → SkipMode → List Frame → Cursor → Except Fault Cursor
  | 0, _, _, c => c.fail .endInValue
  | rounds + 1, mode, frames, c =>
    match mode, frames with
    | .closed, [] => .ok c
    | .value, _ =>
      let c := c.skipBlanks
      match c.rest with
      | '[' :: _ => skipFrom rounds .opened (.array :: frames) c.next
      | '\x7b' :: _ => skipFrom rounds .opened (.object :: frames) c.next
      | _ => do skipFrom rounds .closed frames (← skipScalar c)
    | .opened, [] => .ok c
    | .opened, frame :: outer =>
      let c := c.skipBlanks
      match c.rest, frame with
      | ']' :: _, .array | '\x7d' :: _, .object => skipFrom rounds .closed outer c.next
      | [], .array => c.failPeek .endInList
      | [], .object => c.failPeek .endInObject
      | _, .array => skipFrom rounds .value frames c
      | _, .object => do skipFrom rounds .value frames (← skipKey c)
    | .closed, frame :: outer =>
      let c := c.skipBlanks
      match c.rest, frame with
      | ']' :: _, .array | '\x7d' :: _, .object => skipFrom rounds .closed outer c.next
      | ',' :: _, .array => skipFrom rounds .value frames c.next
      | ',' :: _, .object => do skipFrom rounds .value frames (← skipKey c.next)
      | [], .array => c.failPeek .endInList
      | [], .object => c.failPeek .endInObject
      | _, .array => c.failPeek .expectedCommaOrBracket
      | _, .object => c.failPeek .expectedCommaOrBrace

/-- Skips a value. -/
def skip (c : Cursor) : Except Fault Cursor :=
  skipFrom (2 * c.rest.length + 2) .value [] c

end SheetLint.Json
