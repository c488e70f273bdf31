import SheetLint.Json.Reader
import SheetLint.Json.Schema.Check

/-!
# Reading a text under a schema

A mismatch is met where a reader of the text alone would meet it: a scalar of the wrong kind behind
the scalar, an array or object of the wrong kind before it, and a missing or repeated field behind
the record, as far as the record ends there.
-/

namespace SheetLint.Json

namespace Read

/-- A value of another kind where `expected` is due.  A scalar is read before it is refused, an
array or object is not. -/
def wrongType {α : Type} (expected : String) (c : Cursor) : Except Fault α :=
  match scalar? c with
  | some result => do
    let (j, c) ← result
    c.fail (.mismatch (.wrongType (found j) expected))
  | none =>
    match c.rest with
    | '[' :: _ => c.fail (.mismatch (.wrongType .sequence expected))
    | '\x7b' :: _ => c.fail (.mismatch (.wrongType .map expected))
    | [] => c.failPeek .endInValue
    | _ => c.failPeek .expectedValue

/-- A scalar that `check` accepts; `expected` is what a message says instead. -/
def scalar (starts : Char → Bool) (check : Check) (expected : String) : Reader Json := fun c => do
  let c := c.skipBlanks
  if c.rest.head?.any starts then
    match scalar? c with
    | some result =>
      let (j, c) ← result
      match check j with
      | .ok v => .ok (v, c)
      | .error m => c.fail (.mismatch m)
    | none => wrongType expected c
  else wrongType expected c

/-- Whether the character can begin a number. -/
def startsNumber (c : Char) : Bool := c == '-' || c.isDigit

/-- Whether the character can begin a boolean. -/
def startsFlag (c : Char) : Bool := c == 't' || c == 'f'

/-- Whether the character can begin a string. -/
def startsText (c : Char) : Bool := c == '\x22'

/-- One of the given names. -/
def name (names : List String) (expected : String) : Reader Json :=
  scalar startsText (fun
    | .str s => Check.name names s
    | j => .error (.wrongType (found j) expected)) expected

/-- Null. -/
def unit : Reader Json := fun c =>
  let c := c.skipBlanks
  match c.rest with
  | 'n' :: _ => (word "ull".toList c.next).map (.null, ·)
  | _ => wrongType "unit" c

/-- One of the given names, as a string or as the name of the only field of an object. -/
def oneOf (names : List String) : Reader Json := fun c => do
  let c := c.skipBlanks
  match c.rest with
  | '\x7b' :: _ =>
    let (v, c) ← name names "variant identifier" c.next
    let (_, c) ← unit (← colon c)
    let c := c.skipBlanks
    match c.rest with
    | '\x7d' :: _ => .ok (v, c.next)
    | [] => c.fail .endInObject
    | _ => c.fail .expectedValue
  | '\x22' :: _ => name names "variant identifier" c
  | [] => c.failPeek .endInValue
  | _ => c.failPeek .expectedValue

/-- Null, or what `reader` reads. -/
def optional (reader : Reader Json) : Reader Json := fun c =>
  let c := c.skipBlanks
  match c.rest with
  | 'n' :: _ => (word "ull".toList c.next).map (.null, ·)
  | _ => reader c

/-- A list of what `reader` reads. -/
def list (reader : Reader Json) : Reader Json := fun c =>
  let c := c.skipBlanks
  match c.rest with
  | '[' :: rest => (items reader (rest.length + 1) true c.next).map fun (xs, c) => (.arr xs, c)
  | _ => wrongType "a sequence" c

/-- Any value, then a check of it. -/
def checked (check : Check) : Reader Json := fun c => do
  let (j, c) ← value depthLimit c
  match check j with
  | .ok v => .ok (v, c)
  | .error m => c.fail (.mismatch m)

/-- The closing bracket of an array all of whose items have been read. -/
def closeArray (c : Cursor) : Except Fault Cursor :=
  let c := c.skipBlanks
  match c.rest with
  | ']' :: _ => .ok c.next
  | ',' :: _ =>
    let c := c.next.skipBlanks
    match c.rest with
    | ']' :: _ => c.failPeek .trailingComma
    | _ => c.failPeek .trailingText
  | [] => c.failPeek .endInList
  | _ => c.failPeek .trailingText

/-- Where an array with a mismatch is left. -/
def leaveArray (c : Cursor) : Cursor :=
  let c := c.skipBlanks
  match c.rest with
  | ']' :: _ => c.next
  | ',' :: _ => c.next.skipBlanks
  | _ => c

/-- Where an object with a mismatch is left. -/
def leaveObject (c : Cursor) : Cursor :=
  let c := c.skipBlanks
  match c.rest with
  | '\x7d' :: _ => c.next
  | _ => c

/-- The fields of a record from the items of an array, which may end early.  The closing bracket is
not read. -/
def slotsFromItems (recordName : String) (count : Nat) :
    Nat → List (Slot (Reader Json)) → Reader (List (String × Json))
  | _, [], c => .ok ([], c)
  | index, slot :: slots, c => do
    match ← nextItem (index == 0) c, slot.default with
    | (.item, c), _ =>
      let (v, c) ← slot.recognise c
      let (fields, c) ← slotsFromItems recordName count (index + 1) slots c
      .ok ((slot.name, v) :: fields, c)
    | (.done, c), some v =>
      let (fields, c) ← slotsFromItems recordName count (index + 1) slots c
      .ok ((slot.name, v) :: fields, c)
    | (.done, c), none =>
      (leaveArray c).fail (.mismatch (.wrongLength index (recordLength recordName count)))

/-- The known fields of an object, in at most `rounds` rounds.  The closing brace is not read. -/
def slotsFromFields (slots : List (Slot (Reader Json))) :
    Nat → Bool → List (String × Json) → Cursor → Except Fault (List (String × Json) × Cursor)
  | 0, _, _, c => c.fail .endInObject
  | rounds + 1, first, given, c => do
    match ← nextKey first c with
    | (none, c) => .ok (given, c)
    | (some key, c) =>
      match slots.find? (·.name == key) with
      | none => slotsFromFields slots rounds false given (← skip (← colon c))
      | some slot =>
        if (given.lookup key).isSome then
          (leaveObject c).fail (.mismatch (.duplicateField key))
        else
          let (v, c) ← slot.recognise (← colon c)
          slotsFromFields slots rounds false ((key, v) :: given) c

/-- A record with the given fields. -/
def record (recordName : String) (slots : List (Slot (Reader Json))) : Reader Json := fun c => do
  let c := c.skipBlanks
  match c.rest with
  | '[' :: _ =>
    let (fields, c) ← slotsFromItems recordName slots.length 0 slots c.next
    .ok (.obj fields, ← closeArray c)
  | '\x7b' :: rest =>
    let (given, c) ← slotsFromFields slots (rest.length + 1) true [] c.next
    match assemble slots given with
    | .ok j => .ok (j, c.next)
    | .error m => (leaveObject c).fail (.mismatch m)
  | _ => wrongType ("struct " ++ recordName) c

end Read

mutual

/-- Reads a value of the schema in its regular form. -/
def Schema.reader : Schema → Reader Json
  | .any => value depthLimit
  | .unsigned => Read.scalar Read.startsNumber Check.unsigned "u32"
  | .flag => Read.scalar Read.startsFlag Check.flag "a boolean"
  | .text => Read.scalar Read.startsText (Check.text "a string") "a string"
  | .path => Read.scalar Read.startsText (Check.text "path string") "path string"
  | .oneOf names => Read.oneOf names
  | .optional schema => Read.optional schema.reader
  | .list schema => Read.list schema.reader
  | .textOrTexts typeName => Read.checked (Check.textOrTexts typeName)
  | .record name fields => Read.record name (Schema.readerSlots fields)

/-- The fields of a record with their readers. -/
def Schema.readerSlots : List (String × Schema × Option Json) → List (Slot (Reader Json))
  | [] => []
  | (name, schema, default) :: fields => ⟨name, schema.reader, default⟩ :: readerSlots fields

end

/-- The regular form of the value that a text holds. -/
def Schema.read (schema : Schema) (text : String) : Except Fault Json :=
  readAll schema.reader text

end SheetLint.Json
