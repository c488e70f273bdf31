import SheetLint.Stylesheet.Dialect
import SheetLint.Text

/-!
# Scanning a source for comments and structure

Whatever the dialect, a source is cut from left to right into block comments, line comments,
strings, escapes and single characters.  The scan keeps the comments, refuses a comment, a string
or a block that never ends and a closing brace without a block, and looks at nothing else.

The scan reads one character at a time: `step` is a partial function on states, a source is a
fold of it, and `finish` says what the end of the source means.  So scanning two texts in a row
is scanning the second from where the first one stopped.  What would need a look at the next
character is a mode of its own (`slash`, `starInBlock`, `escape`).

## Main definitions

* `Mode`, `State`: where a scan is.
* `step`, `finish`, `scan`: the automaton, the meaning of the end, and both together.
-/

namespace SheetLint.Stylesheet

open Text (Place)

/-- A comment without its delimiters, and the lines it spans. -/
structure Comment where
  text : List Char
  firstLine : Nat
  lastLine : Nat
  deriving Repr, DecidableEq

/-- The ways in which a source can be malformed. -/
inductive Defect where
  | unclosedComment
  | unclosedString
  | unclosedBlock
  | unexpectedBrace
  deriving Repr, DecidableEq

/-- The reason shown for a malformed source. -/
def Defect.reason : Defect → String
  | .unclosedComment => "Unclosed comment"
  | .unclosedString => "Unclosed string"
  | .unclosedBlock => "Unclosed block"
  | .unexpectedBrace => "Unexpected \x7d"

/-- A defect and the character that opens it. -/
structure Malformed where
  defect : Defect
  place : Place
  deriving Repr, DecidableEq

/-- What the next character belongs to. -/
inductive Mode where
  /-- Outside comments and strings, behind the character `before`. -/
  | plain (before : Char)
  /-- Behind a slash at `slashAt`, which itself followed `before`. -/
  | slash (before : Char) (slashAt : Place)
  /-- Behind a backslash. -/
  | escape
  /-- In the string that `quote` opened at `opened`. -/
  | quoted (quote : Char) (opened : Place)
  /-- In that string, behind a backslash. -/
  | quotedEscape (quote : Char) (opened : Place)
  /-- In the block comment opened at `opened`; `text` is what it holds so far, in reverse. -/
  | inBlock (opened : Place) (text : List Char)
  /-- In that comment, behind a star that is not yet part of its text. -/
  | starInBlock (opened : Place) (text : List Char)
  /-- In the line comment of line `line`; `text` is what it holds so far, in reverse. -/
  | inLine (line : Nat) (text : List Char)
  deriving Repr, DecidableEq

/-- A scan under way. -/
structure State where
  /-- The place of the next character. -/
  place : Place
  mode : Mode
  /-- Where the open blocks began, innermost first. -/
  blocks : List Place
  /-- The comments so far, last one first. -/
  comments : List Comment
  deriving Repr, DecidableEq

/-- The state before the first character, which counts as following a blank. -/
def State.initial : State := ⟨.start, .plain ' ', [], []⟩

/-- The characters behind which `//` opens a comment; behind others, as in `url(http://…)`, it
does not. -/
def admitsLineComment (before : Char) : Bool :=
  Text.isBlank before || before == ';' || before == '\x7b' || before == '\x7d' || before == ','

namespace State

/-- The state behind a character that leaves the scan in mode `mode`. -/
def advance (s : State) (c : Char) (mode : Mode) : State :=
  { s with place := s.place.next c, mode := mode }

/-- Reads `c` outside comments and strings. -/
def stepPlain (d : Dialect) (s : State) (before c : Char) : Except Malformed State :=
  if c = '/' then .ok (s.advance c (.slash before s.place))
  else if c = '\\' then .ok (s.advance c .escape)
  else if c = '\x22' ∨ c = '\x27' then .ok (s.advance c (.quoted c s.place))
  else if c = '\x7b' ∧ d.hasBraces then
    .ok { s.advance c (.plain c) with blocks := s.place :: s.blocks }
  else if c = '\x7d' ∧ d.hasBraces then
    match s.blocks with
    | [] => .error ⟨.unexpectedBrace, s.place⟩
    | _ :: outer => .ok { s.advance c (.plain c) with blocks := outer }
  else .ok (s.advance c (.plain c))

/-- Reads one character.  Behind a comment the scan is as behind a blank; the newline that ends a
line comment is itself an ordinary character. -/
def step (d : Dialect) (s : State) (c : Char) : Except Malformed State :=
  match s.mode with
  | .plain before => s.stepPlain d before c
  | .slash before slashAt =>
    if c = '*' then .ok (s.advance c (.inBlock slashAt []))
    else if c = '/' ∧ d.hasLineComments ∧ admitsLineComment before then
      .ok (s.advance c (.inLine slashAt.line []))
    else s.stepPlain d '/' c
  | .escape => .ok (s.advance c (.plain '\\'))
  | .quoted quote opened =>
    if c = '\\' then .ok (s.advance c (.quotedEscape quote opened))
    else if c = quote then .ok (s.advance c (.plain quote))
    else .ok (s.advance c s.mode)
  | .quotedEscape quote opened => .ok (s.advance c (.quoted quote opened))
  | .inBlock opened text =>
    if c = '*' then .ok (s.advance c (.starInBlock opened text))
    else .ok (s.advance c (.inBlock opened (c :: text)))
  | .starInBlock opened text =>
    if c = '/' then
      .ok { s.advance c (.plain ' ') with
        comments := ⟨text.reverse, opened.line, s.place.line⟩ :: s.comments }
    else if c = '*' then .ok (s.advance c (.starInBlock opened ('*' :: text)))
    else .ok (s.advance c (.inBlock opened (c :: '*' :: text)))
  | .inLine line text =>
    if c = '\n' then
      .ok { s.advance c (.plain c) with comments := ⟨text.reverse, line, line⟩ :: s.comments }
    else .ok (s.advance c (.inLine line (c :: text)))

/-- The comments of a source that ends here. -/
def finish (s : State) : Except Malformed (List Comment) :=
  match s.mode with
  | .inBlock opened _ | .starInBlock opened _ => .error ⟨.unclosedComment, opened⟩
  | .quoted _ opened | .quotedEscape _ opened => .error ⟨.unclosedString, opened⟩
  | .inLine line text => close (⟨text.reverse, line, line⟩ :: s.comments)
  | .plain _ | .slash .. | .escape => close s.comments
where
  /-- An open block is a defect, of which the innermost one is named. -/
  close (comments : List Comment) : Except Malformed (List Comment) :=
    match s.blocks with
    | [] => .ok comments.reverse
    | innermost :: _ => .error ⟨.unclosedBlock, innermost⟩

end State

/-- Reads a text from a given state. -/
def scanFrom (d : Dialect) (s : State) (text : List Char) : Except Malformed State :=
  text.foldlM (State.step d) s

/-- The comments of a source in order, or its first defect. -/
def scan (d : Dialect) (text : List Char) : Except Malformed (List Comment) := do
  (← scanFrom d .initial text).finish

/-- Scanning two texts in a row is scanning the second from where the first one stopped. -/
theorem scanFrom_append (d : Dialect) (s : State) (a b : List Char) :
    scanFrom d s (a ++ b) = (scanFrom d s a).bind fun t => scanFrom d t b := by
  simp only [scanFrom, List.foldlM_append]
  rfl

end SheetLint.Stylesheet
