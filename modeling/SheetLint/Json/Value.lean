import SheetLint.Keyed

/-!
# JSON values

Integers from `-2^63` to `2^64 - 1` are kept exactly, every other number is a double.  The fields
of an object are a list; readers make it sorted by name, with the last of several fields of one
name.
-/

namespace SheetLint

/-- A JSON value. -/
inductive Json where
  | null
  | bool (b : Bool)
  | int (n : Int)
  | float (x : Float)
  | str (s : String)
  | arr (items : List Json)
  | obj (fields : List (String × Json))
  deriving Inhabited

namespace Json

/-- An object with the given fields, sorted by name. -/
def ofFields (fields : List (String × Json)) : Json :=
  .obj (Keyed.ofPairs fields)

/-- The field of an object by name. -/
def field? : Json → String → Option Json
  | .obj fields, name => Keyed.find? fields name
  | _, _ => none

/-- A text or nothing, nothing being written as null. -/
def optional {α : Type} (encode : α → Json) : Option α → Json
  | some a => encode a
  | none => .null

end Json

end SheetLint
