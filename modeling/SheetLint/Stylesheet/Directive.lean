import SheetLint.Text

/-!
# Directives in comments

A comment is a directive when its first word is one of four commands.  The rest of the comment
lists rule names, separated by commas; whatever follows ` -- ` is a description.
-/

namespace SheetLint.Stylesheet

/-- What a directive asks for. -/
inductive Command where
  | disable
  | disableLine
  | disableNextLine
  | enable
  deriving Repr, DecidableEq

/-- The word that names a command. -/
def Command.word : Command → String
  | .disable => "stylelint-disable"
  | .disableLine => "stylelint-disable-line"
  | .disableNextLine => "stylelint-disable-next-line"
  | .enable => "stylelint-enable"

/-- The command a word names. -/
def Command.ofWord? (word : List Char) : Option Command :=
  [.disable, .disableLine, .disableNextLine, .enable].find? fun c => c.word.toList = word

/-- A command and the rules it lists.  An empty list stands for every rule. -/
structure Directive where
  command : Command
  rules : List String
  deriving Repr, DecidableEq

namespace Directive

/-- The rule name that stands for every rule. -/
def everyRule : String := "all"

/-- The mark behind which a description begins. -/
def descriptionMark : List Char := [' ', '-', '-', ' ']

/-- The names of a list: its pieces between commas without surrounding blanks, empty ones left
out. -/
def ruleNames (list : List Char) : List String :=
  (((Text.pieces ',' list).map Text.trim).filter (!·.isEmpty)).map String.ofList

/-- The directive a comment text holds, if any. -/
def ofText? (text : List Char) : Option Directive :=
  let body := Text.trim (Text.before descriptionMark text)
  let (word, list) := Text.breakAt Text.isBlank body
  (Command.ofWord? word).map fun command => ⟨command, ruleNames (list.getD [])⟩

/-- The names under which a directive opens ranges. -/
def targets (d : Directive) : List String :=
  if d.rules.isEmpty then [everyRule] else d.rules

/-- Whether an `enable` directive ends a range opened under `rule`. -/
def ends (d : Directive) (rule : String) : Bool :=
  d.rules.isEmpty || d.rules.contains rule

end Directive

end SheetLint.Stylesheet
