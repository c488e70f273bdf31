import SheetLint.Decimal
import SheetLint.Json.Text
import SheetLint.Text
import SheetLint.Text.Alphanumeric

/-!
# Tokens of loose JSON

Loose JSON is JSON as people write it by hand: with comments, single quotes, hexadecimal numbers, a
plus sign, and bare words for names.  This module cuts a text into tokens.  Blanks and comments
separate tokens and are dropped.

Cutting never fails as a whole: a text that is no token at some place gives the tokens before it and
then a token `bad` with the reason, which nothing follows.  So the grammar meets a bad token exactly
when it gets there, and earlier faults of the grammar go first.
-/

namespace SheetLint.Json.Loose

open SheetLint.Text (Place)

/-- The ways in which a text of loose JSON can be malformed. -/
inductive Defect where
  | unexpectedToken
  | unterminatedComment
  | digitAfterSign
  | expectedDigit
  | expectedExponent
  | unterminatedString
  | invalidEscape
  | singleInDouble
  | doubleInSingle
  | expectedHexDigits
  /-- Half of a surrogate pair, with the digits as written. -/
  | unpaired (digits : String) (isHigh : Bool)
  | unexpectedWord
  | unexpectedCloseBracket
  | unexpectedCloseBrace
  | unexpectedComma
  | unexpectedColon
  | unexpectedInObject
  | unterminatedArray
  | unterminatedObject
  | expectedColon
  | expectedValue
  | severalValues
  deriving Repr, DecidableEq

/-- The wording of a defect. -/
def Defect.message : Defect → String
  | .unexpectedToken => "Unexpected token"
  | .unterminatedComment => "Unterminated comment block"
  | .digitAfterSign => "Expected digit following negative sign"
  | .expectedDigit => "Expected digit"
  | .expectedExponent => "Expected plus, minus, or digit in number literal"
  | .unterminatedString => "Unterminated string literal"
  | .invalidEscape => "Invalid escape"
  | .singleInDouble => "Invalid escape in double quote string"
  | .doubleInSingle => "Invalid escape in single quote string"
  | .expectedHexDigits => "Expected four hex digits"
  | .unpaired digits isHigh =>
    "Invalid unicode escape sequence. '" ++ digits ++
      (if isHigh then " (unpaired high surrogate)" else " (unpaired low surrogate)") ++
      "' is not a valid UTF8 character"
  | .unexpectedWord => "Unexpected word"
  | .unexpectedCloseBracket => "Unexpected close bracket"
  | .unexpectedCloseBrace => "Unexpected close brace"
  | .unexpectedComma => "Unexpected comma"
  | .unexpectedColon => "Unexpected colon"
  | .unexpectedInObject => "Unexpected token in object"
  | .unterminatedArray => "Unterminated array"
  | .unterminatedObject => "Unterminated object"
  | .expectedColon => "Expected colon after the string or word in object property"
  | .expectedValue => "Expected value after colon in object property"
  | .severalValues => "Text cannot contain more than one JSON value"

/-- A defect and its place. -/
structure Fault where
  defect : Defect
  place : Place
  deriving Repr, DecidableEq

/-- The wording of a fault. -/
def Fault.message (f : Fault) : String :=
  f.defect.message ++ " on line " ++ String.ofList (Decimal.natural f.place.line) ++ " column " ++
    String.ofList (Decimal.natural f.place.column)

/-- A token.  Numbers and words keep their spelling. -/
inductive Token where
  | openBrace
  | closeBrace
  | openBracket
  | closeBracket
  | comma
  | colon
  | null
  | bool (b : Bool)
  | string (s : String)
  | number (spelling : String)
  | word (spelling : String)
  | bad (fault : Fault)

/-- A token and the place of its first character. -/
structure Lexeme where
  token : Token
  place : Place

/-- What is left of a text, and the place where it begins. -/
structure Rest where
  place : Place
  text : List Char

namespace Rest

/-- The text without its first character. -/
def next (r : Rest) : Rest :=
  match r.text with
  | [] => r
  | c :: text => ⟨r.place.next c, text⟩

/-- The characters of a class at the front, and the text behind them. -/
def span (p : Char → Bool) (r : Rest) : List Char × Rest :=
  let taken := r.text.takeWhile p
  (taken, ⟨r.place.behind taken, r.text.dropWhile p⟩)

/-- The text behind a word at its front. -/
def behind? (r : Rest) (word : List Char) : Option Rest :=
  if word.isPrefixOf r.text then some ⟨r.place.behind word, r.text.drop word.length⟩ else none

/-- A fault at the front. -/
def fail {α : Type} (r : Rest) (defect : Defect) : Except Fault α :=
  .error ⟨defect, r.place⟩

end Rest

/-! ## Numbers -/

/-- Takes digits, of which there has to be one. -/
def someDigits (p : Char → Bool) (r : Rest) : Except Fault (List Char × Rest) :=
  match r.span p with
  | ([], _) => r.fail .expectedDigit
  | (digits, r) => .ok (digits, r)

/-- Whether the character is a hexadecimal digit. -/
def isHexDigit (c : Char) : Bool := (Decimal.hexValue? c).isSome

/-- Takes the exponent of a number, if there is one. -/
def exponent (r : Rest) : Except Fault (List Char × Rest) :=
  match r.text with
  | e :: sign :: _ =>
    if e = 'e' ∨ e = 'E' then
      if sign = '+' ∨ sign = '-' then do
        let (digits, r) ← someDigits Char.isDigit r.next.next
        .ok (e :: sign :: digits, r)
      else if sign.isDigit then do
        let (digits, r) ← someDigits Char.isDigit r.next
        .ok (e :: digits, r)
      else r.next.fail .expectedExponent
    else .ok ([], r)
  | [e] => if e = 'e' ∨ e = 'E' then r.next.fail .expectedExponent else .ok ([], r)
  | [] => .ok ([], r)

/-- Takes the point of a number and the digits behind it, if there is one. -/
def fraction (r : Rest) : Except Fault (List Char × Rest) :=
  match r.text with
  | '.' :: _ => do
    let (digits, r) ← someDigits Char.isDigit r.next
    .ok ('.' :: digits, r)
  | _ => .ok ([], r)

/-- Takes a number without its sign, which begins with a digit.  Nothing follows a leading zero but
a point, an exponent or, behind an `x`, hexadecimal digits. -/
def magnitude (r : Rest) : Except Fault (List Char × Rest) :=
  match r.text with
  | '0' :: 'x' :: _ => hex 'x'
  | '0' :: 'X' :: _ => hex 'X'
  | _ => do
    let (digits, r) :=
      match r.text with
      | '0' :: _ => (['0'], r.next)
      | _ => r.span Char.isDigit
    let (decimals, r) ← fraction r
    let (power, r) ← exponent r
    .ok (digits ++ decimals ++ power, r)
where
  /-- Takes the hexadecimal digits behind zero and `x`. -/
  hex (x : Char) : Except Fault (List Char × Rest) := do
    let (digits, r) ← someDigits isHexDigit r.next.next
    .ok ('0' :: x :: digits, r)

/-- Takes a number. -/
def number (r : Rest) : Except Fault (Token × Rest) := do
  let (sign, r) : List Char × Rest :=
    match r.text with
    | '-' :: _ => (['-'], r.next)
    | '+' :: _ => (['+'], r.next)
    | _ => ([], r)
  if r.text.head?.any Char.isDigit then
    let (spelling, r) ← magnitude r
    .ok (.number (String.ofList (sign ++ spelling)), r)
  else r.fail .digitAfterSign

/-! ## Strings -/

/-- What the next character of a string is part of; `escapeAt` is the place of the backslash. -/
inductive Mode where
  | plain
  | escape (escapeAt : Place)
  /-- In a numeric escape; `digits` are those read so far, in reverse, and `high` is the first half
  of a pair as it was written. -/
  | hex (escapeAt : Place) (digits : List Char) (high : Option (List Char))
  | pair (escapeAt : Place) (high : List Char)
  | pairEscape (escapeAt : Place) (high : List Char)

/-- The number of hexadecimal digits. -/
def hexNumber (digits : List Char) : Nat := (Decimal.hexNumber? digits).getD 0

/-- Half of a pair that stands alone. -/
def unpaired {α : Type} (escapeAt : Place) (digits : List Char) (isHigh : Bool) :
    Except Fault α :=
  .error ⟨.unpaired (String.ofList digits) isHigh, escapeAt⟩

/-- Reads a string that `quote` opened at `opened`; `read` is what it holds so far, in reverse. -/
def stringFrom (quote : Char) (opened : Place) (read : List Char) (mode : Mode) (place : Place) :
    List Char → Except Fault (Token × Rest)
  | [] =>
    match mode with
    | .plain | .escape _ => .error ⟨.unterminatedString, opened⟩
    | .hex escapeAt _ _ => .error ⟨.expectedHexDigits, escapeAt⟩
    | .pair escapeAt high | .pairEscape escapeAt high => unpaired escapeAt high true
  | c :: rest =>
    match mode with
    | .plain =>
      if c = quote then .ok (.string (String.ofList read.reverse), ⟨place.next c, rest⟩)
      else if c = '\\' then stringFrom quote opened read (.escape place) (place.next c) rest
      else stringFrom quote opened (c :: read) .plain (place.next c) rest
    | .escape escapeAt =>
      if c = 'u' then stringFrom quote opened read (.hex escapeAt [] none) (place.next c) rest
      else if c = '\x27' ∨ c = '\x22' then
        if c = quote then stringFrom quote opened (c :: read) .plain (place.next c) rest
        else .error ⟨if c = '\x27' then .singleInDouble else .doubleInSingle, escapeAt⟩
      else
        match Json.Text.named? c with
        | some x => stringFrom quote opened (x :: read) .plain (place.next c) rest
        | none => .error ⟨.invalidEscape, escapeAt⟩
    | .hex escapeAt digits high =>
      if !isHexDigit c then .error ⟨.expectedHexDigits, escapeAt⟩
      else if digits.length < 3 then
        stringFrom quote opened read (.hex escapeAt (c :: digits) high) (place.next c) rest
      else
        let digits := (c :: digits).reverse
        let unit := hexNumber digits
        match high with
        | none =>
          if Json.Text.isLow unit then unpaired escapeAt digits false
          else if Json.Text.isHigh unit then
            stringFrom quote opened read (.pair escapeAt digits) (place.next c) rest
          else stringFrom quote opened (Char.ofNat unit :: read) .plain (place.next c) rest
        | some high =>
          if Json.Text.isLow unit then
            stringFrom quote opened (Json.Text.ofPair (hexNumber high) unit :: read) .plain
              (place.next c) rest
          else unpaired escapeAt high true
    | .pair escapeAt high =>
      if c = '\\' then
        stringFrom quote opened read (.pairEscape escapeAt high) (place.next c) rest
      else unpaired escapeAt high true
    | .pairEscape escapeAt high =>
      if c = 'u' then
        stringFrom quote opened read (.hex escapeAt [] (some high)) (place.next c) rest
      else unpaired escapeAt high true

/-! ## Words and comments -/

/-- The text behind one of the three words of JSON, unless a letter or number follows it. -/
def keyword? (r : Rest) : Option (Token × Rest) :=
  [("true", Token.bool true), ("false", .bool false), ("null", .null)].findSome?
    fun (word, token) =>
      match r.behind? word.toList with
      | some behind =>
        if behind.text.head?.any SheetLint.Text.isAlphanumeric then none else some (token, behind)
      | none => none

/-- Whether the character can be part of a bare word. -/
def isWordChar (c : Char) : Bool :=
  SheetLint.Text.isAlphanumeric c || c == '-' || c == '_'

/-- Takes a bare word, which extends to a blank or a colon. -/
def word (r : Rest) : Except Fault (Token × Rest) :=
  match r.span fun c => !(SheetLint.Text.isBlank c || c == ':') with
  | ([], _) => r.fail .unexpectedToken
  | (chars, behind) =>
    if chars.all isWordChar then .ok (.word (String.ofList chars), behind)
    else r.fail .unexpectedToken

/-- The text behind the end of a block comment. -/
def blockEnd? (place : Place) : List Char → Option Rest
  | [] => none
  | c :: rest =>
    match c, rest with
    | '*', '/' :: behind => some ⟨(place.next '*').next '/', behind⟩
    | _, _ => blockEnd? (place.next c) rest

/-- The text without the line that a comment runs to the end of.  A carriage return right before
the newline is left with it. -/
def lineEnd (r : Rest) : Rest :=
  (r.span (· != '\n')).2

/-- The text without blanks and comments at its front, in at most `rounds` rounds. -/
def skipSpace : Nat → Rest → Except Fault Rest
  | 0, r => .ok r
  | rounds + 1, r =>
    let (_, r) := r.span SheetLint.Text.isBlank
    match r.text with
    | '/' :: '/' :: _ => skipSpace rounds (lineEnd r)
    | '/' :: '*' :: rest =>
      match blockEnd? ((r.place.next '/').next '*') rest with
      | some behind => skipSpace rounds behind
      | none => r.fail .unterminatedComment
    | '/' :: _ => r.fail .unexpectedToken
    | _ => .ok r

/-! ## The tokens of a text -/

/-- The token at the front of a nonempty text. -/
def token (r : Rest) : Except Fault (Token × Rest) :=
  match r.text with
  | '\x7b' :: _ => .ok (.openBrace, r.next)
  | '\x7d' :: _ => .ok (.closeBrace, r.next)
  | '[' :: _ => .ok (.openBracket, r.next)
  | ']' :: _ => .ok (.closeBracket, r.next)
  | ',' :: _ => .ok (.comma, r.next)
  | ':' :: _ => .ok (.colon, r.next)
  | c :: rest =>
    if c = '\x27' ∨ c = '\x22' then stringFrom c r.place [] .plain (r.place.next c) rest
    else if c = '-' ∨ c = '+' ∨ c.isDigit then number r
    else
      match keyword? r with
      | some result => .ok result
      | none => word r
  | [] => r.fail .unexpectedToken

/-- The tokens of a text, and the place of its end, in at most `rounds` rounds. -/
def lexemesFrom : Nat → Rest → List Lexeme × Place
  | 0, r => ([], r.place)
  | rounds + 1, r =>
    match skipSpace (r.text.length + 1) r with
    | .error fault => ([⟨.bad fault, fault.place⟩], fault.place)
    | .ok r =>
      if r.text.isEmpty then ([], r.place)
      else
        match token r with
        | .error fault => ([⟨.bad fault, r.place⟩], fault.place)
        | .ok (token, behind) =>
          let (lexemes, last) := lexemesFrom rounds behind
          (⟨token, r.place⟩ :: lexemes, last)

/-- The tokens of a text, and the place of its end. -/
def lexemes (text : List Char) : List Lexeme × Place :=
  lexemesFrom (text.length + 1) ⟨.start, text⟩

end SheetLint.Json.Loose
