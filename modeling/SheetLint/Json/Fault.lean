import SheetLint.Decimal
import SheetLint.Json.Cursor
import SheetLint.Text.Quoted

/-!
# What can be wrong with a JSON text or value

A text can be malformed, and a well-formed value can be of the wrong shape (`Mismatch`).  The
wording of every cause is in this module.

A malformed text is reported at the place of the fault, a mismatch where the mismatched value has
been read.
-/

namespace SheetLint.Json

/-- A value that is not what was expected, as far as a message describes it. -/
inductive Found where
  | null
  | bool (b : Bool)
  | int (n : Int)
  | float (x : Float)
  | str (s : String)
  | sequence
  | map

/-- The description of a found value. -/
def Found.describe : Found → String
  | .null => "null"
  | .bool true => "boolean `true`"
  | .bool false => "boolean `false`"
  | .int n => "integer `" ++ String.ofList (Decimal.integer n) ++ "`"
  | .float x => "floating point `" ++ String.ofList (Decimal.jsonLayout.float x) ++ "`"
  | .str s => "string " ++ Text.quoted s
  | .sequence => "sequence"
  | .map => "map"

/-- The ways in which a value can have the wrong shape. -/
inductive Mismatch where
  | wrongType (found : Found) (expected : String)
  | wrongValue (found : Found) (expected : String)
  | wrongLength (length : Nat) (expected : String)
  | missingField (name : String)
  | duplicateField (name : String)
  | unknownName (name : String) (known : List String)
  | noAlternative (typeName : String)

/-- Names as a message lists them. -/
def listNames : List String → String
  | [] => ""
  | [a] => "expected `" ++ a ++ "`"
  | [a, b] => "expected `" ++ a ++ "` or `" ++ b ++ "`"
  | names => "expected one of " ++ ", ".intercalate (names.map fun n => "`" ++ n ++ "`")

/-- The wording of a mismatch. -/
def Mismatch.message : Mismatch → String
  | .wrongType found expected => "invalid type: " ++ found.describe ++ ", expected " ++ expected
  | .wrongValue found expected => "invalid value: " ++ found.describe ++ ", expected " ++ expected
  | .wrongLength n expected =>
    "invalid length " ++ String.ofList (Decimal.natural n) ++ ", expected " ++ expected
  | .missingField name => "missing field `" ++ name ++ "`"
  | .duplicateField name => "duplicate field `" ++ name ++ "`"
  | .unknownName name known => "unknown variant `" ++ name ++ "`, " ++ listNames known
  | .noAlternative typeName => "data did not match any variant of untagged enum " ++ typeName

/-- The ways in which reading a text can fail. -/
inductive Cause where
  | endInList
  | endInObject
  | endInString
  | endInValue
  | expectedColon
  | expectedCommaOrBracket
  | expectedCommaOrBrace
  | expectedWord
  | expectedValue
  | invalidEscape
  | invalidNumber
  | numberOutOfRange
  | controlCharacter
  | keyNotString
  | loneSurrogate
  | trailingComma
  | trailingText
  | shortSurrogatePair
  | tooDeep
  | mismatch (m : Mismatch)

/-- The wording of a cause. -/
def Cause.message : Cause → String
  | .endInList => "EOF while parsing a list"
  | .endInObject => "EOF while parsing an object"
  | .endInString => "EOF while parsing a string"
  | .endInValue => "EOF while parsing a value"
  | .expectedColon => "expected `:`"
  | .expectedCommaOrBracket => "expected `,` or `]`"
  | .expectedCommaOrBrace => "expected `,` or `\x7d`"
  | .expectedWord => "expected ident"
  | .expectedValue => "expected value"
  | .invalidEscape => "invalid escape"
  | .invalidNumber => "invalid number"
  | .numberOutOfRange => "number out of range"
  | .controlCharacter => "control character (\\u0000-\\u001F) found while parsing a string"
  | .keyNotString => "key must be a string"
  | .loneSurrogate => "lone leading surrogate in hex escape"
  | .trailingComma => "trailing comma"
  | .trailingText => "trailing characters"
  | .shortSurrogatePair => "unexpected end of hex escape"
  | .tooDeep => "recursion limit exceeded"
  | .mismatch m => m.message

/-- A cause and its place in the text. -/
structure Fault where
  cause : Cause
  pos : Pos

/-- The wording of a fault. -/
def Fault.message (f : Fault) : String :=
  f.cause.message ++ " at line " ++ String.ofList (Decimal.natural f.pos.line) ++ " column " ++
    String.ofList (Decimal.natural f.pos.column)

/-- A reader takes a value from the front of a text. -/
abbrev Reader (α : Type) := Cursor → Except Fault (α × Cursor)

namespace Cursor

/-- Stops with a cause at the cursor. -/
def fail {α : Type} (c : Cursor) (cause : Cause) : Except Fault α :=
  .error ⟨cause, c.pos⟩

/-- Stops with a cause behind the next byte. -/
def failPeek {α : Type} (c : Cursor) (cause : Cause) : Except Fault α :=
  .error ⟨cause, c.peekPos⟩

end Cursor

end SheetLint.Json
