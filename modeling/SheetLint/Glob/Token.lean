/-!
# Globs

A glob is a pattern for paths.  `?` stands for one byte and `*` for any number of bytes, neither of
them a slash; `**` between slashes, or at either end, stands for any number of whole components;
`[…]` is a class of characters, `{…,…}` a choice between globs, and a backslash takes the meaning
of the next character away.

This module reads a glob into tokens.  A `**` that does not stand between slashes is two stars.
Choices can be nested; a comma outside a choice is an ordinary character.

Where the glob may leave a class unclosed, an opening bracket without an end is an ordinary
character, and so are all opening brackets behind it.
-/

namespace SheetLint.Glob

/-- The ways in which a glob can be malformed. -/
inductive Defect where
  | unclosedClass
  | invalidRange (first last : Char)
  | unopenedChoice
  | unclosedChoice
  | danglingEscape
  deriving Repr, DecidableEq

/-- The wording of a defect. -/
def Defect.message : Defect → String
  | .unclosedClass => "unclosed character class; missing ']'"
  | .invalidRange first last =>
    "invalid range; '" ++ first.toString ++ "' > '" ++ last.toString ++ "'"
  | .unopenedChoice =>
    "unopened alternate group; missing '\x7b' (maybe escape '\x7d' with '[\x7d]'?)"
  | .unclosedChoice =>
    "unclosed alternate group; missing '\x7d' (maybe escape '\x7b' with '[\x7b]'?)"
  | .danglingEscape => "dangling '\\'"

/-- A malformed glob and what is wrong with it. -/
structure Fault where
  glob : String
  defect : Defect
  deriving Repr, DecidableEq

/-- The wording of a fault. -/
def Fault.message (f : Fault) : String :=
  "error parsing glob '" ++ f.glob ++ "': " ++ f.defect.message

/-- A class of characters: some ranges, or everything else. -/
structure CharClass where
  negated : Bool
  ranges : List (Char × Char)
  deriving Repr, DecidableEq

/-- A token of a glob. -/
inductive Token where
  | literal (c : Char)
  /-- One byte that is not a slash. -/
  | any
  /-- Any number of bytes that are not slashes. -/
  | many
  /-- Any number of components at the front. -/
  | componentsFirst
  /-- Components at the end, at least a slash. -/
  | componentsLast
  /-- Any number of components between two slashes. -/
  | componentsBetween
  | oneOf (cls : CharClass)
  | choice (branches : List (List Token))

/-- The character for which a token stands, if it stands for one. -/
def Token.literal? : Token → Option Char
  | .literal c => some c
  | _ => none

/-- Whether the token stands for a character. -/
def Token.isLiteral (t : Token) : Bool := t.literal?.isSome

/-! ## Classes -/

/-- A class that is being read. -/
structure ClassState where
  /-- The ranges so far, last one first. -/
  ranges : List (Char × Char)
  /-- The next character is the end of the last range. -/
  inRange : Bool
  isFirst : Bool

/-- Adds a character to a class. -/
def ClassState.add (s : ClassState) (c : Char) : Except Defect ClassState :=
  match s.inRange, s.ranges with
  | true, (first, _) :: ranges =>
    if c < first then .error (.invalidRange first c) else .ok ⟨(first, c) :: ranges, false, false⟩
  | _, ranges => .ok ⟨(c, c) :: ranges, false, false⟩

/-- The ranges of a class that ends here; a minus at its end stands for itself. -/
def ClassState.finish (s : ClassState) : List (Char × Char) :=
  (if s.inRange then ('-', '-') :: s.ranges else s.ranges).reverse

/-- Reads the rest of a class, giving its ranges and the text behind it; `none` when it has no
end. -/
def classFrom (s : ClassState) :
    List Char → Except Defect (Option (List (Char × Char) × List Char))
  | [] => .ok none
  | c :: rest =>
    if c = ']' ∧ ¬ s.isFirst then .ok (some (s.finish, rest))
    else if c = '-' ∧ ¬ s.isFirst ∧ ¬ s.inRange then classFrom { s with inRange := true } rest
    else
      match s.add c with
      | .ok s => classFrom s rest
      | .error e => .error e

/-- Reads a class behind its opening bracket. -/
def readClass (text : List Char) : Except Defect (Option (CharClass × List Char)) := do
  let (negated, text) :=
    match text with
    | '!' :: rest | '^' :: rest => (true, rest)
    | _ => (false, text)
  match ← classFrom ⟨[], false, true⟩ text with
  | some (ranges, rest) => .ok (some (⟨negated, ranges⟩, rest))
  | none => .ok none

/-! ## Globs -/

/-- A choice that is being read: what stands before it, and its branches so far, both in
reverse. -/
structure Frame where
  outer : List Token
  branches : List (List Token)

/-- A glob that is being read. -/
structure State where
  /-- The character read last. -/
  before : Option Char
  /-- The tokens of the innermost branch, in reverse. -/
  tokens : List Token
  frames : List Frame
  /-- Opening brackets are ordinary characters from here on. -/
  plainBrackets : Bool

namespace State

/-- The state behind `c`, with a further token. -/
def push (s : State) (c : Char) (t : Token) : State :=
  { s with before := some c, tokens := t :: s.tokens }

/-- The state behind the opening brace of a choice. -/
def openChoice (s : State) : State :=
  { s with before := some '\x7b', tokens := [], frames := ⟨s.tokens, []⟩ :: s.frames }

/-- The state behind the closing brace of a choice. -/
def closeChoice (s : State) : Except Defect State :=
  match s.frames with
  | [] => .error .unopenedChoice
  | ⟨outer, branches⟩ :: frames =>
    .ok { s with
      before := some '\x7d'
      tokens := .choice (s.tokens.reverse :: branches).reverse :: outer
      frames := frames }

/-- The state behind a comma. -/
def comma (s : State) : State :=
  match s.frames with
  | [] => s.push ',' (.literal ',')
  | ⟨outer, branches⟩ :: frames =>
    { s with
      before := some ','
      tokens := []
      frames := ⟨outer, s.tokens.reverse :: branches⟩ :: frames }

/-- Two stars without a meaning of their own. -/
def twoStars (s : State) : State :=
  { s with before := some '*', tokens := .many :: .many :: s.tokens }

/-- The token before a `**` is the slash before it, which the `**` takes in, unless that token has
taken a slash in itself. -/
def replaceSlash (s : State) (t : Token) : List Token :=
  match s.tokens with
  | .componentsFirst :: _ | .componentsLast :: _ => s.tokens
  | tokens => t :: tokens.tail

/-- Reads two stars that stand before `text`, giving the text behind the slash that they take
in. -/
def stars (s : State) (text : List Char) : State × List Char :=
  let isInner := !s.frames.isEmpty
  if s.tokens.isEmpty then
    match text with
    | [] => ({ s with before := some '*', tokens := [.componentsFirst] }, [])
    | '/' :: rest => ({ s with before := some '/', tokens := [.componentsFirst] }, rest)
    | _ => (s.twoStars, text)
  else if s.before != some '/' &&
      !(isInner && (s.before == some ',' || s.before == some '\x7b')) then
    (s.twoStars, text)
  else
    match text with
    | [] => ({ s with before := some '*', tokens := s.replaceSlash .componentsLast }, [])
    | '/' :: rest =>
      ({ s with before := some '/', tokens := s.replaceSlash .componentsBetween }, rest)
    | c :: _ =>
      if isInner && (c == ',' || c == '\x7d') then
        ({ s with before := some '*', tokens := s.replaceSlash .componentsLast }, text)
      else (s.twoStars, text)

end State

/-- Reads a glob, in at most `rounds` rounds. -/
def tokensFrom (mayLeaveOpen : Bool) : Nat → State → List Char → Except Defect State
  | 0, s, _ => .ok s
  | _ + 1, s, [] => .ok s
  | rounds + 1, s, c :: rest => do
    if c = '?' then tokensFrom mayLeaveOpen rounds (s.push c .any) rest
    else if c = '*' then
      match rest with
      | '*' :: behind =>
        let (s, behind) := s.stars behind
        tokensFrom mayLeaveOpen rounds s behind
      | _ => tokensFrom mayLeaveOpen rounds (s.push c .many) rest
    else if c = '[' ∧ ¬ s.plainBrackets then
      match ← readClass rest with
      | some (cls, behind) => tokensFrom mayLeaveOpen rounds (s.push ']' (.oneOf cls)) behind
      | none =>
        if mayLeaveOpen then
          tokensFrom mayLeaveOpen rounds
            { s.push c (.literal c) with plainBrackets := true } rest
        else .error .unclosedClass
    else if c = '\x7b' then tokensFrom mayLeaveOpen rounds s.openChoice rest
    else if c = '\x7d' then tokensFrom mayLeaveOpen rounds (← s.closeChoice) rest
    else if c = ',' then tokensFrom mayLeaveOpen rounds s.comma rest
    else if c = '\\' then
      match rest with
      | [] => .error .danglingEscape
      | d :: behind => tokensFrom mayLeaveOpen rounds (s.push d (.literal d)) behind
    else tokensFrom mayLeaveOpen rounds (s.push c (.literal c)) rest

/-- The tokens of a glob. -/
def readTokens (mayLeaveOpen : Bool) (glob : List Char) : Except Defect (List Token) := do
  let s ← tokensFrom mayLeaveOpen (glob.length + 1) ⟨none, [], [], false⟩ glob
  if s.frames.isEmpty then .ok s.tokens.reverse else .error .unclosedChoice

end SheetLint.Glob
