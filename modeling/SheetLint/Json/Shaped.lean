import SheetLint.Json.Schema.Read

/-!
# Types with a JSON shape

A type has a shape when a schema says which values stand for its members, and when the regular form
of each such value names a member.
-/

namespace SheetLint.Json

/-- A type whose members are given by the values of a schema. -/
class Shaped (α : Type) where
  schema : Schema
  ofRegular? : Json → Option α

instance : Shaped String where
  schema := .text
  ofRegular?
    | .str s => some s
    | _ => none

instance {α : Type} [Shaped α] : Shaped (List α) where
  schema := .list (Shaped.schema α)
  ofRegular?
    | .arr xs => xs.mapM Shaped.ofRegular?
    | _ => none

instance {α : Type} [Shaped α] : Shaped (Option α) where
  schema := .optional (Shaped.schema α)
  ofRegular?
    | .null => some none
    | j => (Shaped.ofRegular? j).map some

/-- The member that a regular form names.  The regular forms of the schema name one. -/
def ofRegular {α : Type} [Shaped α] (j : Json) : Except Mismatch α :=
  match Shaped.ofRegular? j with
  | some a => .ok a
  | none => .error (.wrongType (found j) "a regular form")

/-- The member that a value stands for. -/
def decode (α : Type) [Shaped α] (j : Json) : Except Mismatch α := do
  ofRegular (← (Shaped.schema α).check j)

/-- The member that a text stands for. -/
def read (α : Type) [Shaped α] (text : String) : Except Fault α := do
  let j ← (Shaped.schema α).read text
  match ofRegular j with
  | .ok a => .ok a
  | .error m => .error ⟨.mismatch m, ⟨1, 0⟩⟩

/-- A list of members. -/
def list {α : Type} (encode : α → Json) (xs : List α) : Json :=
  .arr (xs.map encode)

/-- A natural number. -/
def nat (n : Nat) : Json := .int n

end SheetLint.Json
