import SheetLint.Glob
import SheetLint.Path
import SheetLint.Text

/-!
# Ignore rules

Rules in the form of ignore files: one glob a line, `!` for an exception, `#` for a comment.  A rule
with a slash is about a path from the base directory on, one without a slash about a name in any
directory; a slash at the end restricts a rule to directories.

Of the rules that match a path the last one decides.  Where none does, the last one that matches the
directory around it decides, and so on outwards, so that ignoring a directory ignores what is in
it.  Paths outside the base directory are never ignored.
-/

namespace SheetLint

/-- A rule of an ignore file. -/
structure IgnoreRule where
  glob : Glob
  /-- The rule is about the last name of a path.  The step `..` is no name. -/
  isAboutName : Bool
  /-- The rule makes an exception. -/
  isException : Bool
  onlyDirectories : Bool
  deriving Repr, DecidableEq

namespace IgnoreRule

/-- Whether the text is a name in any directory, so far as its front tells. -/
def isAnywhere (glob : List Char) : Bool :=
  ['*', '*', '/'].isPrefixOf glob || glob == ['*', '*']

/-- The glob that a rule means for paths from the base directory on. -/
def actualGlob (isAnchored : Bool) (glob : List Char) : List Char :=
  let glob :=
    if !isAnchored && !glob.contains '/' && !isAnywhere glob then ['*', '*', '/'] ++ glob else glob
  if (Text.without? ['/', '*', '*'] glob).isSome then glob ++ ['/', '*'] else glob

/-- The line without blanks at its end, unless the last one is escaped. -/
def trimLine (line : List Char) : List Char :=
  if (Text.without? ['\\', ' '] line).isSome then line else Text.trimEnd line

/-- The front of a rule: whether it makes an exception, whether it begins at the base directory,
and its glob. -/
def readFront (line : List Char) : Bool × Bool × List Char :=
  match line with
  | '\\' :: '!' :: _ | '\\' :: '#' :: _ => (false, false, line.tail)
  | '!' :: '/' :: rest => (true, true, rest)
  | '!' :: rest => (true, false, rest)
  | '/' :: rest => (false, true, rest)
  | _ => (false, false, line)

/-- The end of a rule: its glob without a slash at the end, and whether there was one. -/
def readEnd (glob : List Char) : List Char × Bool :=
  match Text.without? ['/'] glob with
  | some shorter => ((Text.without? ['\\'] shorter).getD shorter, true)
  | none => (glob, false)

/-- Whether the tokens spell a whole path, or its last components from a slash on. -/
def spellsPath : List Glob.Token → Bool
  | .componentsFirst :: tokens =>
    tokens.all Glob.Token.isLiteral && tokens.any fun t => t.literal? == some '/'
  | tokens => tokens.all Glob.Token.isLiteral

/-- Whether a glob is about the last name of a path.  Of the globs that `..` could match, those are
that do not spell the slash before it. -/
def isNameGlob (tokens : List Glob.Token) : Bool :=
  (tokens.getLast?.bind Glob.Token.literal?) == some '.' && !spellsPath tokens

/-- The rule that a line holds, or nothing for a comment or a blank line. -/
def ofLine? (line : String) : Except Glob.Fault (Option IgnoreRule) :=
  let trimmed := trimLine line.toList
  if line.toList.head? = some '#' ∨ trimmed = [] then .ok none
  else
    let (isException, isAnchored, glob) := readFront trimmed
    let (glob, onlyDirectories) := readEnd glob
    match Glob.readTokens true (actualGlob isAnchored glob) with
    | .ok tokens =>
      .ok (some ⟨Glob.ofTokens tokens, isNameGlob tokens, isException, onlyDirectories⟩)
    | .error defect => .error ⟨String.ofList trimmed, defect⟩

/-- Whether the last step of a path is spelled as `..`. -/
def endsInUp (path : String) : Bool :=
  (Text.pieces '/' path.toList).getLast? == some ['.', '.']

/-- Whether the rule matches a path. -/
def applies (r : IgnoreRule) (path : String) (isDirectory : Bool) : Bool :=
  (!r.onlyDirectories || isDirectory) && !(r.isAboutName && endsInUp path) &&
    r.glob.matchesPath path

end IgnoreRule

/-- What rules say about a path. -/
inductive Verdict where
  | ignored
  | excepted
  /-- No rule matches. -/
  | silent
  deriving Repr, DecidableEq

/-- The ignore rules of a base directory. -/
structure IgnoreRules where
  base : String
  rules : List IgnoreRule
  deriving Repr, DecidableEq

/-- A line that is no rule. -/
structure BadIgnoreLine where
  line : String
  fault : Glob.Fault
  deriving Repr, DecidableEq

namespace IgnoreRules

/-- The rules that lines hold, in order, or the first line that is no rule. -/
def ofLines (base : String) (lines : List String) : Except BadIgnoreLine IgnoreRules := do
  let rules ← lines.filterMapM fun line =>
    match IgnoreRule.ofLine? line with
    | .ok rule => .ok rule
    | .error fault => .error ⟨line, fault⟩
  .ok ⟨base, rules⟩

/-- No rules. -/
def none (base : String) : IgnoreRules := ⟨base, []⟩

/-- The number of rules that are no exceptions. -/
def size (r : IgnoreRules) : Nat := r.rules.countP (!·.isException)

/-- What the last matching rule says about a path from the base directory on. -/
def verdictOn (r : IgnoreRules) (path : String) (isDirectory : Bool) : Verdict :=
  match r.rules.reverse.find? (·.applies path isDirectory) with
  | some rule => if rule.isException then .excepted else .ignored
  | Option.none => .silent

/-- What the rules say about a path or the nearest directory around it that they speak of, in at
most `rounds` steps outwards. -/
def verdictFrom (r : IgnoreRules) : Nat → String → Bool → Verdict
  | 0, _, _ => .silent
  | rounds + 1, path, isDirectory =>
    match r.verdictOn path isDirectory with
    | .silent =>
      match Path.parent? path with
      | some parent => verdictFrom r rounds parent true
      | Option.none => .silent
    | verdict => verdict

/-- A text without `./` at its front. -/
def withoutHere (path : List Char) : List Char :=
  (Text.behind? ['.', '/'] path).getD path

/-- The path from the base directory on, when its spelling repeats the base directory. -/
def withoutBase (base : String) (path : String) : String :=
  let root := withoutHere base.toList
  let path := withoutHere path.toList
  let shorter :=
    if root = ['.'] ∨ !path.contains '/' then path
    else
      match Text.behind? root path with
      | some rest => (Text.behind? ['/'] rest).getD rest
      | Option.none => path
  String.ofList shorter

/-- Whether the file at a path is ignored. -/
def isIgnored (r : IgnoreRules) (path : String) : Bool :=
  let relative := if Path.isAbsolute path then Path.below? r.base path else some path
  match relative with
  | some path =>
    if path.isEmpty then false
    else
      let path := withoutBase r.base path
      r.verdictFrom (path.length + 1) path false == .ignored
  | Option.none => false

end IgnoreRules

end SheetLint
