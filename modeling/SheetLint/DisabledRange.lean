import SheetLint.Stylesheet.Directive
import SheetLint.Stylesheet.Scan
import SheetLint.Warning

/-!
# Ranges in which a rule is disabled

A range suppresses the warnings of one rule, or of every rule, from its first line to its last
one; without a last line it runs to the end of the source.  Directive comments open and close
ranges: `ofComments` reads them in order.

A `disable` of a name that is already open opens no second range, and an `enable` ends every open
range it names at its own first line, so that at most one range of a name is open.
-/

namespace SheetLint

open Stylesheet

/-- The lines over which the rule `rule` is disabled. -/
structure DisabledRange where
  rule : String
  start : Nat
  /-- The last disabled line; `none` when the range runs to the end of the source. -/
  last : Option Nat
  deriving Repr, DecidableEq

namespace DisabledRange

/-- A range of a single line. -/
def ofLine (rule : String) (line : Nat) : DisabledRange := ⟨rule, line, some line⟩

/-- Whether `line` falls into the range. -/
def containsLine (r : DisabledRange) (line : Nat) : Bool :=
  r.start ≤ line && r.last.all (line ≤ ·)

/-- Whether the range is about `rule`.  Names compare exactly, and `all` is about every rule. -/
def targets (r : DisabledRange) (rule : String) : Bool :=
  r.rule == Directive.everyRule || r.rule == rule

/-- Whether the range suppresses the warning. -/
def covers (r : DisabledRange) (w : Warning) : Bool :=
  r.targets w.rule && r.containsLine w.line

/-- Whether the range is still open, and about exactly this name. -/
def isOpenFor (r : DisabledRange) (rule : String) : Bool :=
  r.last.isNone && r.rule == rule

/-- The ranges once `rule` is disabled from `line` on. -/
def disable (ranges : List DisabledRange) (rule : String) (line : Nat) : List DisabledRange :=
  if ranges.any (·.isOpenFor rule) then ranges else ranges ++ [⟨rule, line, none⟩]

/-- The range once an `enable` directive stands on `line`. -/
def enable (d : Directive) (line : Nat) (r : DisabledRange) : DisabledRange :=
  if r.last.isNone && d.ends r.rule then { r with last := some line } else r

/-- The ranges once a directive of the comment `c` has been read. -/
def apply (ranges : List DisabledRange) (c : Comment) (d : Directive) : List DisabledRange :=
  match d.command with
  | .disableLine => ranges ++ d.targets.map (ofLine · c.firstLine)
  | .disableNextLine => ranges ++ d.targets.map (ofLine · (c.lastLine + 1))
  | .disable => d.targets.foldl (disable · · c.firstLine) ranges
  | .enable => ranges.map (enable d c.firstLine)

/-- The ranges once the comment `c` has been read. -/
def read (ranges : List DisabledRange) (c : Comment) : List DisabledRange :=
  match Directive.ofText? c.text with
  | some d => apply ranges c d
  | none => ranges

/-- The ranges that the directives among the comments of a source describe. -/
def ofComments (comments : List Comment) : List DisabledRange :=
  comments.foldl read []

end DisabledRange

end SheetLint
