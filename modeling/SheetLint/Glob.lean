import SheetLint.Glob.Expr
import SheetLint.Glob.Token

/-!
# Matching paths against globs

A compiled glob is the regular expression that its tokens mean.  A character of a glob means its
UTF-8 bytes.  In a class too the bytes count: a character beyond ASCII adds each of its bytes, and a
range reaches from the last byte of its first character to the first byte of its last one.

A choice without a branch that says anything is empty, and empty branches beside others are left
out.
-/

namespace SheetLint

/-- A compiled glob. -/
structure Glob where
  expr : Glob.Expr
  deriving Repr, DecidableEq

namespace Glob

/-- The bytes of a path, for matching. -/
def bytes (path : String) : List UInt8 := path.toUTF8.toList

/-- The slash. -/
def slash : Expr := .exactly 47

/-- Any number of bytes. -/
def anything : Expr := .run .all

/-- The byte ranges that a range of characters contributes to a class. -/
def byteRanges (range : Char × Char) : List (UInt8 × UInt8) :=
  let single (b : UInt8) := (b, b)
  let first := String.utf8EncodeChar range.1
  let last := String.utf8EncodeChar range.2
  if range.1 = range.2 then first.map single
  else
    match first.reverse, last with
    | b :: front, c :: back => (front.reverse.map single) ++ (b, c) :: back.map single
    | _, _ => []

/-- What a class means. -/
def CharClass.byteClass (cls : CharClass) : ByteClass :=
  ⟨cls.negated, cls.ranges.flatMap byteRanges⟩

mutual

/-- What a token means. -/
def Token.expr : Token → Expr
  | .literal c => .sequence ((String.utf8EncodeChar c).map .exactly)
  | .any => .byte .noSlash
  | .many => .run .noSlash
  | .componentsFirst => .alt .empty (.seq anything slash)
  | .componentsLast => .seq slash anything
  | .componentsBetween => .alt slash (.seq slash (.seq anything slash))
  | .oneOf cls => .byte cls.byteClass
  | .choice branches => .firstOf (branchExprs branches)

/-- What tokens in a row mean. -/
def tokensExpr : List Token → Expr
  | [] => .empty
  | t :: rest => t.expr.andThen (tokensExpr rest)

/-- What the branches mean that say anything. -/
def branchExprs : List (List Token) → List Expr
  | [] => []
  | branch :: rest =>
    match tokensExpr branch with
    | .empty => branchExprs rest
    | e => e :: branchExprs rest

end

/-- What a whole glob means; `**` alone stands for every path. -/
def ofTokens : List Token → Glob
  | [.componentsFirst] => ⟨anything⟩
  | tokens => ⟨tokensExpr tokens⟩

/-- Reads a glob. -/
def read (mayLeaveOpen : Bool) (glob : String) : Except Fault Glob :=
  match readTokens mayLeaveOpen glob.toList with
  | .ok tokens => .ok (ofTokens tokens)
  | .error defect => .error ⟨glob, defect⟩

/-- Whether the glob matches the path. -/
def matchesPath (g : Glob) (path : String) : Bool :=
  g.expr.matches? (bytes path)

/-- The characters that have a meaning in a glob and are taken literally by a class. -/
def isEscaped (c : Char) : Bool :=
  c == '?' || c == '*' || c == '[' || c == ']' || c == '\x7b' || c == '\x7d'

/-- A glob for the given text, as long as it has no backslashes, which stay as they are. -/
def escape (text : List Char) : List Char :=
  text.flatMap fun c => if isEscaped c then ['[', c, ']'] else [c]

end Glob

end SheetLint
