import SheetLint.CommandLine.Switch

/-!
# The usage text

One line for each switch, its spellings in a column of their own.
-/

namespace SheetLint.CommandLine

/-- The spellings of a switch, the place of the letter being left blank when there is none. -/
def Entry.spelling (e : Entry) : String :=
  let letter :=
    match e.letter with
    | some c => String.ofList ['-', c, ',', ' ']
    | none => "    "
  let value :=
    match e.valueName with
    | some name => " <" ++ name ++ ">"
    | none => ""
  letter ++ "--" ++ e.name ++ value

/-- The text filled up with blanks. -/
def padded (width : Nat) (text : String) : String :=
  text ++ String.ofList (List.replicate (width - text.length) ' ')

/-- The width of the column of spellings. -/
def spellingWidth : Nat :=
  (Switch.table.map fun e => e.spelling.length).foldl max 0

/-- The line about a switch. -/
def Entry.line (e : Entry) : String :=
  "  " ++ padded spellingWidth e.spelling ++ "  " ++ e.purpose ++ "\n"

/-- The usage text. -/
def usage : String :=
  "stylelint - lint stylesheets\n\nUsage: stylelint [OPTIONS] [FILES]...\n\n" ++
  "Arguments:\n  [FILES]...  File globs to lint\n\nOptions:\n" ++
  String.join (Switch.table.map Entry.line)

end SheetLint.CommandLine
