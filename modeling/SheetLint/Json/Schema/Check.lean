import SheetLint.Json.Schema

/-!
# Checking a value against a schema

The fields of an object are looked at in their order, then the first missing field of the schema
counts.
-/

namespace SheetLint.Json

/-- A check of a value, giving its regular form. -/
abbrev Check := Json → Except Mismatch Json

namespace Check

/-- An integer in the range of `unsigned`. -/
def unsigned : Check
  | .int n =>
    if 0 ≤ n ∧ n ≤ unsignedLimit then .ok (.int n) else .error (.wrongValue (.int n) "u32")
  | j => .error (.wrongType (found j) "u32")

/-- A boolean. -/
def flag : Check
  | .bool b => .ok (.bool b)
  | j => .error (.wrongType (found j) "a boolean")

/-- A string; `expected` is what a message says instead. -/
def text (expected : String) : Check
  | .str s => .ok (.str s)
  | j => .error (.wrongType (found j) expected)

/-- One of the given names. -/
def name (names : List String) (s : String) : Except Mismatch Json :=
  if names.contains s then .ok (.str s) else .error (.unknownName s names)

/-- One of the given names, as a string or as the name of a field. -/
def oneOf (names : List String) : Check
  | .str s => name names s
  | .obj [(s, v)] => do
    let result ← name names s
    match v with
    | .null => .ok result
    | v => .error (.wrongType (found v) "unit")
  | .obj _ => .error (.wrongValue .map "map with a single key")
  | j => .error (.wrongType (found j) "string or map")

/-- Null, or what `check` accepts. -/
def optional (check : Check) : Check
  | .null => .ok .null
  | j => check j

/-- A list of what `check` accepts. -/
def list (check : Check) : Check
  | .arr xs => (xs.mapM check).map .arr
  | j => .error (.wrongType (found j) "a sequence")

/-- A string or a list of strings. -/
def textOrTexts (typeName : String) : Check
  | .str s => .ok (.str s)
  | .arr xs =>
    match xs.mapM (text "") with
    | .ok ys => .ok (.arr ys)
    | .error _ => .error (.noAlternative typeName)
  | _ => .error (.noAlternative typeName)

/-- The fields of a record from the items of an array, which may end early. -/
def slotsFromItems (recordName : String) (count : Nat) :
    Nat → List (Slot Check) → List Json → Except Mismatch (List (String × Json) × List Json)
  | _, [], rest => .ok ([], rest)
  | index, slot :: slots, items => do
    match items, slot.default with
    | x :: rest, _ =>
      let v ← slot.recognise x
      let (fields, rest) ← slotsFromItems recordName count (index + 1) slots rest
      .ok ((slot.name, v) :: fields, rest)
    | [], some v =>
      let (fields, rest) ← slotsFromItems recordName count (index + 1) slots []
      .ok ((slot.name, v) :: fields, rest)
    | [], none => .error (.wrongLength index (recordLength recordName count))

/-- A record with the given fields. -/
def record (recordName : String) (slots : List (Slot Check)) : Check
  | .obj fields => do
    let given ← fields.filterMapM fun (key, v) =>
      match slots.find? (·.name == key) with
      | some slot => (slot.recognise v).map fun w => some (key, w)
      | none => .ok none
    assemble slots given
  | .arr items => do
    let (fields, rest) ← slotsFromItems recordName slots.length 0 slots items
    if rest.isEmpty then .ok (.obj fields)
    else .error (.wrongLength items.length "fewer elements in array")
  | j => .error (.wrongType (found j) ("struct " ++ recordName))

end Check

mutual

/-- The regular form of a value, or its first mismatch. -/
def Schema.check : Schema → Check
  | .any => .ok
  | .unsigned => Check.unsigned
  | .flag => Check.flag
  | .text => Check.text "a string"
  | .path => Check.text "path string"
  | .oneOf names => Check.oneOf names
  | .optional schema => Check.optional schema.check
  | .list schema => Check.list schema.check
  | .textOrTexts typeName => Check.textOrTexts typeName
  | .record name fields => Check.record name (Schema.checkSlots fields)

/-- The fields of a record with their checks. -/
def Schema.checkSlots : List (String × Schema × Option Json) → List (Slot Check)
  | [] => []
  | (name, schema, default) :: fields => ⟨name, schema.check, default⟩ :: checkSlots fields

end

end SheetLint.Json
