import SheetLint.CommandLine.Options
import SheetLint.CommandLine.Usage
import SheetLint.Engine.Structural
import SheetLint.Run

/-!
# The program

The program reads its arguments, lints with the structural engine, and ends with text on its
standard output and an exit code.  Without files and without an inline source it lints its standard
input, which is read only then.

The exit code is 0 when no result fails, 2 when one does or when the arguments are refused, and 1
when a run ends without results or cannot begin.
-/

namespace SheetLint

/-- How the program ends. -/
structure Exit where
  code : Nat
  /-- The text on standard output. -/
  output : String
  /-- The text on standard error. -/
  notice : String := ""
  disk : Disk

namespace Exit

/-- The line that answers a request for the version. -/
def versionLine : String := "stylelint " ++ EngineSettings.keyVersion ++ "\n"

/-- The end of a program whose arguments are not run. -/
def ofArgumentFault (d : Disk) : ArgumentFault → Exit
  | .helpRequest => { code := 0, output := CommandLine.usage, disk := d }
  | .versionRequest => { code := 0, output := versionLine, disk := d }
  | fault => { code := 2, output := "", notice := "error: " ++ fault.message ++ "\n", disk := d }

/-- The end of a program that has no results. -/
def ofRunError (d : Disk) (error : RunError) : Exit where
  code := 1
  output := ""
  notice := "error: " ++ error.message ++ "\n"
  disk := d

/-- A text as lines: nothing for the empty text, and a newline at the end of any other. -/
def ended (text : String) : String :=
  if text.isEmpty || text.toList.getLast? == some '\n' then text else text ++ "\n"

/-- What an outcome prints. -/
def outcomeText (o : Outcome) : String :=
  ended o.output ++
    match o.needless with
    | some reports => (Json.list NeedlessReport.toJson reports).printIndented ++ "\n"
    | none => ""

/-- The end of a run. -/
def ofRun (r : LintRun Outcome) : Exit :=
  match r.answer with
  | .ok outcome =>
    { code := if outcome.errored then 2 else 0, output := outcomeText outcome, disk := r.disk }
  | .error error => ofRunError r.disk error

end Exit

/-- The options with the standard input as their source, when they name no other.  `input` is what
reading the standard input gives, if it is read. -/
def RunOptions.orRead (o : RunOptions) (input : Except SystemError String) :
    Except SystemError RunOptions :=
  if o.files.isNone ∧ o.code.isNone then
    input.map fun text => { o with code := some text }
  else .ok o

/-- The options of the run that the command line asks for. -/
def CommandLine.runOptions (c : CommandLine) (d : Disk) (input : Except SystemError String) :
    Except RunError RunOptions := do
  let o ← (c.options d).mapError .config
  (o.orRead input).mapError .system

/-- The program, given what reading its standard input gives. -/
def programReading (d : Disk) (arguments : List String)
    (input : Except SystemError String) : Exit :=
  match CommandLine.read arguments with
  | .error fault => Exit.ofArgumentFault d fault
  | .ok line =>
    match line.runOptions d input with
    | .error error => Exit.ofRunError d error
    | .ok options => Exit.ofRun (run Engine.structural d options)

/-- The program, given the text that its standard input holds. -/
def program (d : Disk) (arguments : List String) (input : String) : Exit :=
  programReading d arguments (.ok input)

end SheetLint
