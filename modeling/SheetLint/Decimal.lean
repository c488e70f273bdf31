/-!
# Numbers in decimal digits

Natural numbers and integers are written without leading zeros.

A double is written as the shortest decimal that reads back.  A finite double is `m · 2^q`, and the
reals that round to it form an interval around it.  Its shortest decimal is the one with the fewest
digits in that interval; of several the nearest one.

All arithmetic is on natural numbers.  A decimal grid is tried from coarse to fine, and on each grid
only the two neighbours of the value can be the answer: if any point of a grid lies in the
interval, one of them does.  Seventeen digits always suffice.

`Layout` holds the decisions of a printed form, and `jsonLayout` those of JSON.
-/

namespace SheetLint.Decimal

/-! ## Whole numbers -/

/-- The digit with a value below ten. -/
def digit (n : Nat) : Char := Nat.digitChar (n % 10)

/-- The value of a decimal digit. -/
def digitValue (c : Char) : Nat := c.toNat - '0'.toNat

/-- A number in decimal digits, without leading zeros. -/
def natural (n : Nat) : List Char := Nat.toDigits 10 n

/-- An integer in decimal digits, with a sign when it is negative. -/
def integer : Int → List Char
  | .ofNat n => natural n
  | .negSucc n => '-' :: natural (n + 1)

/-- The number that a text of digits names, read from a number already read. -/
def valueFrom (n : Nat) (digits : List Char) : Nat :=
  digits.foldl (fun n c => 10 * n + digitValue c) n

/-- The value of a hexadecimal digit. -/
def hexValue? (c : Char) : Option Nat :=
  if c.isDigit then some (c.toNat - '0'.toNat)
  else if 'a' ≤ c ∧ c ≤ 'f' then some (c.toNat - 'a'.toNat + 10)
  else if 'A' ≤ c ∧ c ≤ 'F' then some (c.toNat - 'A'.toNat + 10)
  else none

/-- The number that hexadecimal digits name; `none` when a character is no such digit. -/
def hexNumber? (digits : List Char) : Option Nat :=
  digits.foldlM (fun n c => (hexValue? c).map (16 * n + ·)) 0

/-! ## The shortest decimal of a double -/

/-- A power of two. -/
def twoPow (n : Nat) : Nat := Nat.pow 2 n

/-- The value `m · 2^q`. -/
structure Dyadic where
  m : Nat
  q : Int
  /-- The next smaller double is only half as far away as the next larger one. -/
  lowerIsClose : Bool

/-- A positive finite double as a dyadic value. -/
def Dyadic.ofBits (bits : UInt64) : Dyadic :=
  let fraction := bits.toNat % twoPow 52
  let exponent : Nat := (bits.toNat / twoPow 52) % twoPow 11
  if exponent = 0 then ⟨fraction, -1074, false⟩
  else ⟨twoPow 52 + fraction, (exponent : Int) - 1075, fraction = 0 && exponent > 1⟩

/-- The value `digits · 10^exponent`. -/
structure Scientific where
  digits : Nat
  exponent : Int
  deriving Repr, DecidableEq

/-- `b ^ e` when `e` is not negative, else one. -/
def powUp (b : Nat) (e : Int) : Nat := Nat.pow b e.toNat

/-- `b ^ (-e)` when `e` is negative, else one. -/
def powDown (b : Nat) (e : Int) : Nat := Nat.pow b (-e).toNat

/-- Compares `k · 10^e` with `n · 2^s`, as naturals of the same scale. -/
def sameScale (k : Nat) (e : Int) (n : Nat) (s : Int) : Nat × Nat :=
  (k * powUp 10 e * powDown 2 s, n * powUp 2 s * powDown 10 e)

/-- Whether `k · 10^e` rounds to the double. -/
def Dyadic.admits (b : Dyadic) (k : Nat) (e : Int) : Bool :=
  let low := sameScale k e (4 * b.m - (if b.lowerIsClose then 1 else 2)) (b.q - 2)
  let high := sameScale k e (4 * b.m + 2) (b.q - 2)
  if b.m % 2 = 0 then low.2 ≤ low.1 && high.1 ≤ high.2 else low.2 < low.1 && high.1 < high.2

/-- The largest `k` with `k · 10^e` at most the value. -/
def Dyadic.floorAt (b : Dyadic) (e : Int) : Nat :=
  (b.m * powUp 2 b.q * powDown 10 e) / (powDown 2 b.q * powUp 10 e)

/-- Whether the upper neighbour on the grid `10^e` is nearer than the lower neighbour `k · 10^e`. -/
def Dyadic.upperIsNearer (b : Dyadic) (k : Nat) (e : Int) : Bool :=
  let (middle, value) := sameScale (2 * k + 1) e (2 * b.m) b.q
  middle < value

/-- The answer on the grid `10^e`, if it has one. -/
def Dyadic.onGrid? (b : Dyadic) (e : Int) : Option Scientific :=
  let k := b.floorAt e
  let lower := k ≠ 0 && b.admits k e
  let upper := b.admits (k + 1) e
  if lower && upper then some ⟨if b.upperIsNearer k e then k + 1 else k, e⟩
  else if lower then some ⟨k, e⟩
  else if upper then some ⟨k + 1, e⟩
  else none

/-- An exponent `e` such that the value is below `10^e` and not below `10^(e - 2)`. -/
def Dyadic.magnitude (b : Dyadic) : Int :=
  let whole := b.floorAt 0
  if whole ≠ 0 then (natural whole).length
  else 1 - ((natural (powDown 2 b.q / b.m)).length : Int)

/-- The shortest decimal of a positive double. -/
def Dyadic.shortest (b : Dyadic) : Scientific :=
  let top := b.magnitude
  ((List.range 18).findSome? fun (i : Nat) => b.onGrid? (top - 1 - i)).getD ⟨b.m, b.q⟩

/-- The same value without trailing zeros in its digits, of which there are at most `n`. -/
def Scientific.strip : Nat → Scientific → Scientific
  | 0, s => s
  | n + 1, s =>
    if s.digits ≠ 0 ∧ s.digits % 10 = 0 then strip n ⟨s.digits / 10, s.exponent + 1⟩ else s

/-- The decisions of a printed form. -/
structure Layout where
  /-- The least position of the decimal point that is written positionally. -/
  least : Int
  /-- The greatest one. -/
  greatest : Int
  /-- What follows a whole number. -/
  whole : List Char
  /-- What precedes an exponent that is not negative. -/
  plus : List Char

/-- The value in digits; `point` is the position of the decimal point in them. -/
def Layout.render (l : Layout) (s : Scientific) : List Char :=
  let digits := natural s.digits
  let count : Int := digits.length
  let point := count + s.exponent
  if l.least ≤ point ∧ point ≤ l.greatest then
    if 0 ≤ s.exponent then digits ++ List.replicate s.exponent.toNat '0' ++ l.whole
    else if 0 < point then digits.take point.toNat ++ '.' :: digits.drop point.toNat
    else ['0', '.'] ++ List.replicate (-point).toNat '0' ++ digits
  else
    let mantissa :=
      match digits with
      | first :: rest => first :: (if rest.isEmpty then [] else '.' :: rest)
      | [] => []
    mantissa ++ 'e' :: (if 0 ≤ point - 1 then l.plus else []) ++ integer (point - 1)

/-- Numbers in JSON are positional from `0.00001` up to sixteen digits before the point, a whole
number ends in `.0`, and every exponent has a sign. -/
def jsonLayout : Layout := ⟨-4, 16, ['.', '0'], ['+']⟩

/-- A finite double in the given form. -/
def Layout.float (l : Layout) (x : Float) : List Char :=
  let bits := x.toBits
  let sign := if bits.toNat / twoPow 63 = 1 then ['-'] else []
  let b := Dyadic.ofBits bits
  let s := if b.m = 0 then ⟨0, 0⟩ else b.shortest.strip 20
  sign ++ l.render s

end SheetLint.Decimal
