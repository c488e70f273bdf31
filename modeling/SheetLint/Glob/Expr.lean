/-!
# Regular expressions over bytes

What a glob means is a regular expression over the bytes of a path.  Matching keeps track of the
places of a text that can be reached: from the front of the text, behind something that the
expression describes.  A place is between two bytes, so a text of `n` bytes has `n + 1` places, and
a text matches when its last place can be reached.

All places are followed at once, so that matching takes time in proportion to the length of the
text and the size of the expression, and is a definition by recursion on the expression.
-/

namespace SheetLint.Glob

/-- A byte class: some ranges, or everything else. -/
structure ByteClass where
  negated : Bool
  ranges : List (UInt8 × UInt8)
  deriving Repr, DecidableEq

/-- Whether the byte is in the class. -/
def ByteClass.contains (cls : ByteClass) (b : UInt8) : Bool :=
  cls.ranges.any (fun (first, last) => first ≤ b && b ≤ last) != cls.negated

/-- The class of all bytes. -/
def ByteClass.all : ByteClass := ⟨true, []⟩

/-- The class of all bytes but the slash. -/
def ByteClass.noSlash : ByteClass := ⟨true, [(47, 47)]⟩

/-- A regular expression. -/
inductive Expr where
  /-- The empty text. -/
  | empty
  /-- One byte of a class. -/
  | byte (cls : ByteClass)
  /-- Any number of bytes of a class. -/
  | run (cls : ByteClass)
  | seq (first second : Expr)
  | alt (first second : Expr)
  deriving Repr, DecidableEq

namespace Expr

/-- The places reached behind one byte of a class, from the places `reached`. -/
def behindByte (cls : ByteClass) (text : List UInt8) (reached : List Bool) : List Bool :=
  false :: List.zipWith (fun b isReached => isReached && cls.contains b) text reached

/-- The places reached behind any number of bytes of a class.  `isInside` tells whether the place at
the front is reached from an earlier one. -/
def behindRun (cls : ByteClass) (isInside : Bool) : List UInt8 → List Bool → List Bool
  | b :: text, isReached :: reached =>
    (isInside || isReached) ::
      behindRun cls ((isInside || isReached) && cls.contains b) text reached
  | [], isReached :: _ => [isInside || isReached]
  | _, [] => []

/-- The places of a text reached behind something that the expression describes. -/
def behind (text : List UInt8) : Expr → List Bool → List Bool
  | .empty, reached => reached
  | .byte cls, reached => behindByte cls text reached
  | .run cls, reached => behindRun cls false text reached
  | .seq first second, reached => second.behind text (first.behind text reached)
  | .alt first second, reached =>
    List.zipWith (· || ·) (first.behind text reached) (second.behind text reached)

/-- Whether the expression describes the whole text. -/
def matches? (e : Expr) (text : List UInt8) : Bool :=
  (e.behind text (true :: List.replicate text.length false)).getLast? == some true

/-- One given byte. -/
def exactly (b : UInt8) : Expr := .byte ⟨false, [(b, b)]⟩

/-- One expression behind another one; the empty text adds nothing. -/
def andThen : Expr → Expr → Expr
  | .empty, e => e
  | e, .empty => e
  | e, f => .seq e f

/-- Several expressions in a row. -/
def sequence (parts : List Expr) : Expr :=
  parts.foldr andThen .empty

/-- The first of several expressions or one of the others; none of them when there are none. -/
def firstOf : List Expr → Expr
  | [] => .empty
  | [e] => e
  | e :: rest => .alt e (firstOf rest)

end Expr

end SheetLint.Glob
