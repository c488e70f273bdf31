import SheetLint.Decimal
import SheetLint.Json.Value

/-!
# Writing JSON

The compact form has no blanks; the indented form puts every item and every field on a line of its
own, two blanks deeper than what encloses it, and writes an empty array or object in one piece.
In a string only the quote, the backslash and the control characters below the blank are escaped.
-/

namespace SheetLint.Json

/-- A character of a string. -/
def escape (c : Char) : List Char :=
  if c = '\x22' then ['\\', '\x22']
  else if c = '\\' then ['\\', '\\']
  else if c = '\n' then ['\\', 'n']
  else if c = '\r' then ['\\', 'r']
  else if c = '\t' then ['\\', 't']
  else if c = '\x08' then ['\\', 'b']
  else if c = '\x0c' then ['\\', 'f']
  else if c.toNat < 0x20 then
    ['\\', 'u', '0', '0', Nat.digitChar (c.toNat / 16), Nat.digitChar (c.toNat % 16)]
  else [c]

/-- A string with its quotes. -/
def quote (s : List Char) : List Char :=
  '\x22' :: (s.flatMap escape ++ ['\x22'])

mutual

/-- The compact form of a value. -/
def compact : Json → List Char
  | .null => "null".toList
  | .bool true => "true".toList
  | .bool false => "false".toList
  | .int n => Decimal.integer n
  | .float x => Decimal.jsonLayout.float x
  | .str s => quote s.toList
  | .arr [] => ['[', ']']
  | .arr (x :: xs) => '[' :: (compact x ++ compactItems xs)
  | .obj [] => ['\x7b', '\x7d']
  | .obj ((k, v) :: fields) =>
    '\x7b' :: (quote k.toList ++ ':' :: (compact v ++ compactFields fields))

/-- The items behind the first one, and the end of the array. -/
def compactItems : List Json → List Char
  | [] => [']']
  | x :: xs => ',' :: (compact x ++ compactItems xs)

/-- The fields behind the first one, and the end of the object. -/
def compactFields : List (String × Json) → List Char
  | [] => ['\x7d']
  | (k, v) :: fields => ',' :: (quote k.toList ++ ':' :: (compact v ++ compactFields fields))

end

/-- A new line, indented by the given number of steps. -/
def newline (depth : Nat) : List Char :=
  '\n' :: List.replicate (2 * depth) ' '

mutual

/-- The indented form of a value that stands at the given depth. -/
def indented (depth : Nat) : Json → List Char
  | .arr (x :: xs) =>
    '[' :: (newline (depth + 1) ++ indented (depth + 1) x ++ indentedItems depth xs)
  | .obj ((k, v) :: fields) =>
    '\x7b' :: (newline (depth + 1) ++ quote k.toList ++ ':' :: ' ' ::
      (indented (depth + 1) v ++ indentedFields depth fields))
  | .null => compact .null
  | .bool b => compact (.bool b)
  | .int n => compact (.int n)
  | .float x => compact (.float x)
  | .str s => compact (.str s)
  | .arr [] => compact (.arr [])
  | .obj [] => compact (.obj [])

/-- The items behind the first one, and the end of the array. -/
def indentedItems (depth : Nat) : List Json → List Char
  | [] => newline depth ++ [']']
  | x :: xs => ',' :: (newline (depth + 1) ++ indented (depth + 1) x ++ indentedItems depth xs)

/-- The fields behind the first one, and the end of the object. -/
def indentedFields (depth : Nat) : List (String × Json) → List Char
  | [] => newline depth ++ ['\x7d']
  | (k, v) :: fields =>
    ',' :: (newline (depth + 1) ++ quote k.toList ++ ':' :: ' ' ::
      (indented (depth + 1) v ++ indentedFields depth fields))

end

/-- The compact text of a value. -/
def print (j : Json) : String := String.ofList j.compact

/-- The indented text of a value. -/
def printIndented (j : Json) : String := String.ofList (j.indented 0)

end SheetLint.Json
