/-!
# Stylesheet dialects

A dialect decides two things about the structure of a source: whether `//` can open a comment,
and whether braces delimit blocks.  A dialect is chosen by name, or by the extension of a file
name.
-/

namespace SheetLint.Stylesheet

/-- The dialects whose structure differs, or whose names differ. -/
inductive Dialect where
  | css
  | scss
  | less
  /-- Blocks are given by indentation, so that braces are ordinary characters. -/
  | sass
  deriving Repr, DecidableEq

namespace Dialect

/-- Whether `//` can open a comment that runs to the end of its line. -/
def hasLineComments (d : Dialect) : Bool :=
  d != .css

/-- Whether braces delimit blocks. -/
def hasBraces (d : Dialect) : Bool :=
  d != .sass

/-- A dialect by one of its names, which compare exactly. -/
def ofName? : String → Option Dialect
  | "css" | "postcss" => some .css
  | "scss" | "postcss-scss" => some .scss
  | "less" | "postcss-less" => some .less
  | "sass" | "sugarss" => some .sass
  | _ => none

/-- The dialect of a file extension, letter case of ASCII aside.  An unknown extension, or none,
means plain CSS. -/
def ofExtension (extension : Option String) : Dialect :=
  match extension.map String.toLower with
  | some "scss" => .scss
  | some "less" => .less
  | some "sass" | some "sss" => .sass
  | _ => .css

end Dialect

end SheetLint.Stylesheet
