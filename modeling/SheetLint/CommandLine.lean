import SheetLint.CommandLine.Switch
import SheetLint.Text

/-!
# Reading the command line

Arguments are read from left to right.  `--name` and `--name=value` give a switch by its long name,
`-xyz` gives switches by their letters, and what does not begin with a dash is a value or a file.
Behind `--` everything is a file.

An option whose value was not attached waits for the next argument.  It is settled when the next
switch or file comes, or at the end: only then is its value looked at.
-/

namespace SheetLint

/-- Why arguments are not run. -/
inductive ArgumentFault where
  | unknownArgument
  /-- A value is missing or empty. -/
  | invalidValue
  /-- A switch is given twice, or two switches exclude each other. -/
  | argumentConflict
  /-- A value is given to a switch that takes none. -/
  | tooManyValues
  /-- No fault, but a request for the usage text. -/
  | helpRequest
  /-- No fault, but a request for the version. -/
  | versionRequest
  deriving Repr, DecidableEq

/-- The wording of a fault. -/
def ArgumentFault.message : ArgumentFault → String
  | .unknownArgument => "unexpected argument found"
  | .invalidValue => "a value is required for an argument but none was supplied"
  | .argumentConflict => "an argument cannot be used multiple times or with another one"
  | .tooManyValues => "unexpected value for an argument that takes none"
  | .helpRequest => "help requested"
  | .versionRequest => "version requested"

/-- What a command line says. -/
structure CommandLine where
  settings : List (CommandLine.Setting × String) := []
  flags : List CommandLine.Flag := []
  files : List String := []
  deriving Repr, DecidableEq

namespace CommandLine

/-- The value of a setting. -/
def value? (c : CommandLine) (s : Setting) : Option String :=
  c.settings.lookup s

/-- All values of a setting. -/
def values (c : CommandLine) (s : Setting) : List String :=
  (c.settings.filter (·.1 == s)).map Prod.snd

/-- Whether the flag is given. -/
def has (c : CommandLine) (f : Flag) : Bool :=
  c.flags.contains f

/-- The command line with a setting. -/
def set (c : CommandLine) (s : Setting) (value : String) : Except ArgumentFault CommandLine :=
  if (c.value? s).isSome ∧ ¬ s.mayRepeat then .error .argumentConflict
  else if s.isPath ∧ value = "" then .error .invalidValue
  else .ok { c with settings := c.settings ++ [(s, value)] }

/-- The command line with a flag. -/
def raise (c : CommandLine) (f : Flag) : Except ArgumentFault CommandLine :=
  if c.has f then .error .argumentConflict else .ok { c with flags := c.flags ++ [f] }

/-! ## The state of reading -/

/-- What has been read, and the setting that is not settled yet, with its value if that has come. -/
structure Reading where
  line : CommandLine := {}
  open? : Option (Setting × Option String) := none

namespace Reading

/-- Settles the open setting. -/
def settle (r : Reading) : Except ArgumentFault CommandLine :=
  match r.open? with
  | none => .ok r.line
  | some (_, none) => .error .invalidValue
  | some (s, some value) => r.line.set s value

/-- Reads a setting with the value that is attached to it, if one is. -/
def takeSetting (r : Reading) (s : Setting) (attached : Option String) :
    Except ArgumentFault Reading := do
  let line ← r.settle
  match attached with
  | some value => .ok ⟨← line.set s value, none⟩
  | none => .ok ⟨line, some (s, none)⟩

/-- Reads a switch without a value. -/
def takePlain (r : Reading) : Switch → Except ArgumentFault Reading
  | .setting s => r.takeSetting s none
  | .flag f => do .ok ⟨← (← r.settle).raise f, none⟩
  | .help => do
    let _ ← r.settle
    .error .helpRequest
  | .version => do
    let _ ← r.settle
    .error .versionRequest

/-- Reads a switch by its long name. -/
def takeName (r : Reading) (name : String) (attached : Option String) :
    Except ArgumentFault Reading :=
  match Switch.ofName? name, attached with
  | none, _ => .error .unknownArgument
  | some (.setting s), attached => r.takeSetting s attached
  | some _, some _ => .error .tooManyValues
  | some switch, none => r.takePlain switch

/-- Reads switches by their letters.  What follows the letter of a setting is its value. -/
def takeLetters (r : Reading) : List Char → Except ArgumentFault Reading
  | [] => .ok r
  | letter :: rest =>
    match Switch.ofLetter? letter with
    | none => .error .unknownArgument
    | some (.setting s) =>
      match rest with
      | [] => r.takeSetting s none
      | '=' :: value => r.takeSetting s (some (String.ofList value))
      | value => r.takeSetting s (some (String.ofList value))
    | some switch => do takeLetters (← r.takePlain switch) rest

/-- Reads files. -/
def takeFiles (r : Reading) (files : List String) : Except ArgumentFault Reading := do
  let line ← r.settle
  .ok ⟨{ line with files := line.files ++ files }, none⟩

/-- Reads an argument that is no switch. -/
def takeWord (r : Reading) (word : String) : Except ArgumentFault Reading :=
  match r.open? with
  | some (s, none) => .ok { r with open? := some (s, some word) }
  | _ => r.takeFiles [word]

/-- Reads an argument other than `--`. -/
def take (r : Reading) (argument : String) : Except ArgumentFault Reading :=
  match argument.toList with
  | '-' :: '-' :: text =>
    let (name, attached) := Text.breakAt (· == '=') text
    r.takeName (String.ofList name) (attached.map String.ofList)
  | ['-'] => r.takeWord argument
  | '-' :: letters => r.takeLetters letters
  | _ => r.takeWord argument

/-- Reads arguments. -/
def takeAll (r : Reading) : List String → Except ArgumentFault Reading
  | [] => .ok r
  | "--" :: [] => .ok r
  | "--" :: files => r.takeFiles files
  | argument :: rest => do takeAll (← r.take argument) rest

end Reading

/-- Reads a command line.  Files and an inline source exclude each other. -/
def read (arguments : List String) : Except ArgumentFault CommandLine := do
  let line ← (← ({} : Reading).takeAll arguments).settle
  if (line.value? .code).isSome ∧ line.files ≠ [] then .error .argumentConflict
  else .ok line

end CommandLine

end SheetLint
