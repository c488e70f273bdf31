import SheetLint.Decimal
import SheetLint.Json.Fault
import SheetLint.Json.Value

/-!
# Reading numbers

A number without point and exponent is an integer when it fits 64 bits; every other number is a
double.  The double is the product or quotient, rounded once, of the digits as an integer below
`2^64` and a power of ten; digits that would exceed the integer only count towards the power.
-/

namespace SheetLint.Json

namespace Number

/-- The largest integer that digits are gathered into. -/
def limit : Nat := 0xffffffffffffffff

/-- Gathers digits into `n` as long as the result stays within `bound`; the digits that do not fit
are left. -/
def gather (bound : Nat) (n : Nat) : List Char → Nat × List Char
  | [] => (n, [])
  | c :: rest =>
    let m := 10 * n + Decimal.digitValue c
    if m ≤ bound then gather bound m rest else (n, c :: rest)

/-- The powers of ten as doubles. -/
def powerOfTen (n : Nat) : Float := Float.ofScientific 1 false n

/-- The greatest exponent of a power of ten that is a finite double. -/
def greatestPower : Nat := 308

/-- `x / 10^n`, dividing in steps that stay finite. -/
def divideByPower (x : Float) (n : Nat) : Float :=
  if n ≤ greatestPower then x / powerOfTen n
  else if x == 0.0 then x
  else divideByPower (x / powerOfTen greatestPower) (n - greatestPower)
termination_by n
decreasing_by simp_all [greatestPower]; omega

/-- The double `± n · 10^e`, or nothing when it is too large. -/
def scale? (negative : Bool) (n : Nat) (e : Int) : Option Float :=
  let x := n.toUInt64.toFloat
  let magnitude :=
    match e with
    | .negSucc k => some (divideByPower x (k + 1))
    | .ofNat k =>
      if k ≤ greatestPower then
        let y := x * powerOfTen k
        if y.isInf then none else some y
      else if x == 0.0 then some x
      else none
  magnitude.map fun y => if negative then -y else y

/-- The digits at the front of a text, and the cursor behind them. -/
def digits (c : Cursor) : List Char × Cursor :=
  let ds := c.rest.takeWhile Char.isDigit
  (ds, ⟨⟨c.pos.line, c.pos.column + ds.length⟩, c.rest.dropWhile Char.isDigit⟩)

/-- The double `± n · 10^e`, the number being read up to `c`. -/
def finish (negative : Bool) (n : Nat) (e : Int) (c : Cursor) : Except Fault (Json × Cursor) :=
  match scale? negative n e with
  | some x => .ok (.float x, c)
  | none => c.fail .numberOutOfRange

/-- The largest exponent that is read as a number; a larger one means zero or too large. -/
def exponentLimit : Nat := 0x7fffffff

/-- Reads the exponent behind its letter. -/
def exponent (negative : Bool) (n : Nat) (e : Int) (c : Cursor) : Except Fault (Json × Cursor) :=
  let (down, c) :=
    match c.rest with
    | '-' :: _ => (true, c.next)
    | '+' :: _ => (false, c.next)
    | _ => (false, c)
  let (ds, behind) := digits c
  if ds.isEmpty then
    if c.rest.isEmpty then c.fail .endInValue else c.failPeek .invalidNumber
  else
    let (k, left) := gather exponentLimit 0 ds
    if left.isEmpty then finish negative n (if down then e - k else e + k) behind
    else if n ≠ 0 ∧ ¬ down then
      .error ⟨.numberOutOfRange, ⟨c.pos.line, c.pos.column + (ds.length - left.length) + 1⟩⟩
    else .ok (.float (if negative then -0.0 else 0.0), behind)

/-- Reads what may follow the digits of a double. -/
def afterDigits (negative : Bool) (n : Nat) (e : Int) (c : Cursor) :
    Except Fault (Json × Cursor) :=
  match c.rest with
  | 'e' :: _ | 'E' :: _ => exponent negative n e c.next
  | _ => finish negative n e c

/-- Reads the digits behind the point. -/
def fraction (negative : Bool) (n : Nat) (e : Int) (c : Cursor) : Except Fault (Json × Cursor) :=
  let (ds, behind) := digits c
  if ds.isEmpty then
    if c.rest.isEmpty then c.fail .endInValue else c.failPeek .invalidNumber
  else
    let (m, left) := gather limit n ds
    afterDigits negative m (e - (ds.length - left.length : Nat)) behind

/-- An integer without point and exponent.  Zero with a sign and integers below `-2^63` are
doubles. -/
def integer (negative : Bool) (n : Nat) : Json :=
  if negative then
    if n ≠ 0 ∧ n ≤ 0x8000000000000000 then .int (-n) else .float (-n.toUInt64.toFloat)
  else .int n

/-- Reads a number behind its sign. -/
def unsigned (negative : Bool) (c : Cursor) : Except Fault (Json × Cursor) :=
  let (ds, behind) := digits c
  match ds with
  | [] => if c.rest.isEmpty then c.fail .endInValue else c.failPeek .invalidNumber
  | '0' :: _ :: _ => c.next.failPeek .invalidNumber
  | _ =>
    let (n, left) := gather limit 0 ds
    match behind.rest with
    | '.' :: _ => fraction negative n left.length behind.next
    | 'e' :: _ | 'E' :: _ => exponent negative n left.length behind.next
    | _ =>
      if left.isEmpty then .ok (integer negative n, behind)
      else finish negative n left.length behind

/-- Reads a number. -/
def read (c : Cursor) : Except Fault (Json × Cursor) :=
  match c.rest with
  | '-' :: _ => unsigned true c.next
  | _ => unsigned false c

/-- Skips an exponent behind its letter. -/
def skipExponent (c : Cursor) : Except Fault Cursor :=
  let c :=
    match c.rest with
    | '-' :: _ | '+' :: _ => c.next
    | _ => c
  let (ds, behind) := digits c
  if ds.isEmpty then c.failPeek .invalidNumber else .ok behind

/-- Skips a number without looking at its value. -/
def skip (c : Cursor) : Except Fault Cursor := do
  let c :=
    match c.rest with
    | '-' :: _ => c.next
    | _ => c
  let (ds, behind) := digits c
  match ds with
  | [] => c.failPeek .invalidNumber
  | '0' :: _ :: _ => c.next.failPeek .invalidNumber
  | _ =>
    match behind.rest with
    | '.' :: _ =>
      let c := behind.next
      let (ds, behind) := digits c
      if ds.isEmpty then c.failPeek .invalidNumber
      else
        match behind.rest with
        | 'e' :: _ | 'E' :: _ => skipExponent behind.next
        | _ => .ok behind
    | 'e' :: _ | 'E' :: _ => skipExponent behind.next
    | _ => .ok behind

end Number

end SheetLint.Json
