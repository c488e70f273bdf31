/-!
# Binary forms that read back

A type with a `Binary` form has its members written as bytes that say themselves where they end.
Each form comes with its law: whatever follows, reading gives back what was written and leaves the
rest.  So forms can be put one behind another, and a text of bytes that `decode?` accepts is the
form of one member and nothing else.

A natural number is written in base 128, lowest digit first, the last digit being marked; a list is
its length and its members in a row; a character is its code point.
-/

namespace SheetLint

/-- A binary form of the members of a type. -/
class Binary (α : Type) where
  write : α → List UInt8
  /-- The member at the front of some bytes, and what is behind it. -/
  read? : List UInt8 → Option (α × List UInt8)
  read?_write (a : α) (rest : List UInt8) : read? (write a ++ rest) = some (a, rest)

namespace Binary

attribute [simp] Binary.read?_write

/-- The bytes of a member. -/
def encode {α : Type} [Binary α] (a : α) : List UInt8 := write a

/-- The member whose form are all of the bytes. -/
def decode? (α : Type) [Binary α] (bytes : List UInt8) : Option α :=
  match read? bytes with
  | some (a, []) => some a
  | _ => none

@[simp] theorem decode?_encode {α : Type} [Binary α] (a : α) : decode? α (encode a) = some a := by
  have h := read?_write a []
  rw [List.append_nil] at h
  simp [decode?, encode, h]

/-! ## Numbers -/

/-- A number in base 128, lowest digit first, 128 being added to the last digit. -/
def writeNat (n : Nat) : List UInt8 :=
  if n < 128 then [UInt8.ofNat (n + 128)] else UInt8.ofNat (n % 128) :: writeNat (n / 128)

/-- The number at the front of some bytes. -/
def readNat? : List UInt8 → Option (Nat × List UInt8)
  | [] => none
  | b :: rest =>
    if b.toNat < 128 then (readNat? rest).map fun (n, rest) => (n * 128 + b.toNat, rest)
    else some (b.toNat - 128, rest)

theorem readNat?_writeNat (n : Nat) (rest : List UInt8) :
    readNat? (writeNat n ++ rest) = some (n, rest) := by
  fun_induction writeNat n with
  | case1 n h =>
    have hb : (UInt8.ofNat (n + 128)).toNat = n + 128 := by
      simp only [UInt8.toNat_ofNat']; omega
    have hge : ¬ n + 128 < 128 := by omega
    simp only [List.cons_append, List.nil_append, readNat?, hb, hge, if_false, Nat.add_sub_cancel]
  | case2 n h ih =>
    have hb : (UInt8.ofNat (n % 128)).toNat = n % 128 := by
      simp only [UInt8.toNat_ofNat']; omega
    have hlt : n % 128 < 128 := Nat.mod_lt _ (by decide)
    simp only [List.cons_append, readNat?, hb, hlt, if_true, ih, Option.map_some, Option.some.injEq,
      Prod.mk.injEq, and_true]
    omega

instance : Binary Nat := ⟨writeNat, readNat?, readNat?_writeNat⟩

/-! ## Forms made from forms -/

/-- The form of a type whose members are given by those of another type. -/
@[reducible] def via {α β : Type} [Binary β] (give : α → β) (take : β → α)
    (h : ∀ a, take (give a) = a) : Binary α where
  write a := write (give a)
  read? bytes := (read? bytes).map fun (b, rest) => (take b, rest)
  read?_write a rest := by simp [h]

instance {α β : Type} [Binary α] [Binary β] : Binary (α × β) where
  write p := write p.1 ++ write p.2
  read? bytes := do
    let (a, bytes) ← read? bytes
    let (b, bytes) ← read? bytes
    some ((a, b), bytes)
  read?_write p rest := by simp

/-- So many members in a row. -/
def readMany? {α : Type} [Binary α] : Nat → List UInt8 → Option (List α × List UInt8)
  | 0, bytes => some ([], bytes)
  | n + 1, bytes => do
    let (a, bytes) ← read? bytes
    let (as, bytes) ← readMany? n bytes
    some (a :: as, bytes)

theorem readMany?_flatMap {α : Type} [Binary α] (as : List α) (rest : List UInt8) :
    readMany? as.length (as.flatMap write ++ rest) = some (as, rest) := by
  induction as with
  | nil => rfl
  | cons a as ih => simp [readMany?, ih]

instance {α : Type} [Binary α] : Binary (List α) where
  write as := writeNat as.length ++ as.flatMap write
  read? bytes := do
    let (n, bytes) ← readNat? bytes
    readMany? n bytes
  read?_write as rest := by simp [readNat?_writeNat, readMany?_flatMap]

instance : Binary Bool where
  write b := [if b then 1 else 0]
  read?
    | 0 :: rest => some (false, rest)
    | 1 :: rest => some (true, rest)
    | _ => none
  read?_write b rest := by cases b <;> rfl

instance {α : Type} [Binary α] : Binary (Option α) where
  write
    | none => [0]
    | some a => 1 :: write a
  read?
    | 0 :: rest => some (none, rest)
    | 1 :: rest => (read? rest).map fun (a, rest) => (some a, rest)
    | _ => none
  read?_write a rest := by cases a <;> simp

/-! ## Texts -/

instance : Binary Char where
  write c := writeNat c.toNat
  read? bytes := do
    let (n, rest) ← readNat? bytes
    if n.isValidChar then some (Char.ofNat n, rest) else none
  read?_write c rest := by
    have h : c.toNat.isValidChar := c.valid
    simp [readNat?_writeNat, h]

instance : Binary String := via String.toList String.ofList fun _ => String.ofList_toList

end Binary

end SheetLint
