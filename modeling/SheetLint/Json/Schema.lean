import SheetLint.Json.Fault
import SheetLint.Json.Value

/-!
# Shapes of JSON values

A `Schema` says which values stand for a datum of some type.  It is used in two ways:
`Schema.check` looks at a value that has been read before, and `Schema.read` reads a text and looks
at each part as soon as it has been read.  The two meet mismatches in different orders: a value has
its fields sorted, a text has them as written.

Both give the *regular form* of the datum: records list all their fields in the order of the
schema, with the default value in place of a field that was left out.

A record can be given as an object, whose unknown fields are ignored, or as an array of its fields
in the order of the schema, where fields at the end may be left out if they have a default.
-/

namespace SheetLint.Json

/-- What a value has to be. -/
inductive Schema where
  /-- Any value. -/
  | any
  /-- An integer from zero to `2^32 - 1`. -/
  | unsigned
  | flag
  | text
  /-- A text that names a path. -/
  | path
  /-- One of some names, as a string, or as an object with the name as its only field, which is
  null. -/
  | oneOf (names : List String)
  /-- Null, or what the schema says. -/
  | optional (schema : Schema)
  | list (schema : Schema)
  /-- A string or a list of strings; the name is that of the type. -/
  | textOrTexts (typeName : String)
  /-- A record with its name and fields.  A field without a default must be given. -/
  | record (name : String) (fields : List (String × Schema × Option Json))

/-- The largest number of the schema `unsigned`. -/
def unsignedLimit : Nat := 0xffffffff

/-- The description of a value. -/
def found : Json → Found
  | .null => .null
  | .bool b => .bool b
  | .int n => .int n
  | .float x => .float x
  | .str s => .str s
  | .arr _ => .sequence
  | .obj _ => .map

/-- What a message calls a record with the given number of fields, when one is missing in an
array. -/
def recordLength (name : String) (count : Nat) : String :=
  "struct " ++ name ++ " with " ++ String.ofList (Decimal.natural count) ++
    (if count = 1 then " element" else " elements")

/-- A field of a record, with what recognises its value. -/
structure Slot (α : Type) where
  name : String
  recognise : α
  default : Option Json

/-- The regular form of a record whose fields have been found, each at most once. -/
def assemble {α : Type} (slots : List (Slot α)) (given : List (String × Json)) :
    Except Mismatch Json := do
  let fields ← slots.mapM fun slot =>
    match given.lookup slot.name, slot.default with
    | some v, _ => .ok (slot.name, v)
    | none, some v => .ok (slot.name, v)
    | none, none => .error (.missingField slot.name)
  .ok (.obj fields)

end SheetLint.Json
