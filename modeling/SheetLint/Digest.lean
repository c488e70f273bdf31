/-!
# Content digests

The 256-bit BLAKE3 hash, unkeyed, as 64 hexadecimal digits.  A message is cut into chunks of 1024
bytes, each chunk into blocks of 64 bytes, and each block into sixteen words.  The chunks are the
leaves of a binary tree whose left subtrees are as large as a power of two allows; every node of
the tree is the compression of its two children.

The tree is given by recursion on the list of chunks, and the compression works on lists of words,
so that every step is a definition on plain data.
-/

namespace SheetLint.Digest

/-- A word of the compression's state. -/
abbrev Word := UInt32

/-- The starting chaining value. -/
def initialChain : List Word :=
  [0x6A09E667, 0xBB67AE85, 0x3C6EF372, 0xA54FF53A, 0x510E527F, 0x9B05688C, 0x1F83D9AB, 0x5BE0CD19]

/-- The order in which the words of a block enter the next round. -/
def schedule : List Nat := [2, 6, 3, 10, 7, 0, 4, 13, 1, 11, 12, 5, 9, 14, 15, 8]

/-- What a compressed block is. -/
structure Flags where
  chunkStart : Bool
  chunkEnd : Bool
  parent : Bool
  root : Bool

/-- The flags as a word. -/
def Flags.word (f : Flags) : Word :=
  (if f.chunkStart then 1 else 0) ||| (if f.chunkEnd then 2 else 0) |||
    (if f.parent then 4 else 0) ||| (if f.root then 8 else 0)

/-- Rotation to the right. -/
def rotate (x : Word) (n : Word) : Word :=
  (x >>> n) ||| (x <<< (32 - n))

/-- Four words that are mixed together. -/
structure Quarter where
  a : Word
  b : Word
  c : Word
  d : Word

/-- Mixes two message words into four words of the state. -/
def mix (q : Quarter) (x y : Word) : Quarter :=
  let a := q.a + q.b + x
  let d := rotate (q.d ^^^ a) 16
  let c := q.c + d
  let b := rotate (q.b ^^^ c) 12
  let a := a + b + y
  let d := rotate (d ^^^ a) 8
  let c := c + d
  let b := rotate (b ^^^ c) 7
  ⟨a, b, c, d⟩

/-- The state of a compression: the four columns of a square of words. -/
structure Square where
  c0 : Quarter
  c1 : Quarter
  c2 : Quarter
  c3 : Quarter

/-- Mixes the columns with the first eight words of a block and the diagonals with the others. -/
def round (s : Square) (m : Array Word) : Square :=
  let w (i : Nat) : Word := m.getD i 0
  let p0 := mix s.c0 (w 0) (w 1)
  let p1 := mix s.c1 (w 2) (w 3)
  let p2 := mix s.c2 (w 4) (w 5)
  let p3 := mix s.c3 (w 6) (w 7)
  let d0 := mix ⟨p0.a, p1.b, p2.c, p3.d⟩ (w 8) (w 9)
  let d1 := mix ⟨p1.a, p2.b, p3.c, p0.d⟩ (w 10) (w 11)
  let d2 := mix ⟨p2.a, p3.b, p0.c, p1.d⟩ (w 12) (w 13)
  let d3 := mix ⟨p3.a, p0.b, p1.c, p2.d⟩ (w 14) (w 15)
  ⟨⟨d0.a, d3.b, d2.c, d1.d⟩, ⟨d1.a, d0.b, d3.c, d2.d⟩, ⟨d2.a, d1.b, d0.c, d3.d⟩,
    ⟨d3.a, d2.b, d1.c, d0.d⟩⟩

/-- The given number of rounds, the block being reordered between them. -/
def rounds : Nat → Square → Array Word → Square
  | 0, s, _ => s
  | n + 1, s, m => rounds n (round s m) ((schedule.map fun i => m.getD i 0).toArray)

/-- The chaining value behind a block of sixteen words that holds `length` bytes. -/
def compress (chain : List Word) (block : List Word) (counter : UInt64) (length : Nat)
    (flags : Flags) : List Word :=
  let h (i : Nat) : Word := chain.getD i 0
  let k (i : Nat) : Word := initialChain.getD i 0
  let s : Square :=
    ⟨⟨h 0, h 4, k 0, counter.toUInt32⟩, ⟨h 1, h 5, k 1, (counter >>> 32).toUInt32⟩,
      ⟨h 2, h 6, k 2, length.toUInt32⟩, ⟨h 3, h 7, k 3, flags.word⟩⟩
  let t := rounds 7 s block.toArray
  [t.c0.a ^^^ t.c0.c, t.c1.a ^^^ t.c1.c, t.c2.a ^^^ t.c2.c, t.c3.a ^^^ t.c3.c,
    t.c0.b ^^^ t.c0.d, t.c1.b ^^^ t.c1.d, t.c2.b ^^^ t.c2.d, t.c3.b ^^^ t.c3.d]

/-- The given number of words, each from four bytes with the least significant one first; missing
bytes count as zero. -/
def words : Nat → List UInt8 → List Word
  | 0, _ => []
  | n + 1, bytes =>
    let b (i : Nat) : Word := (bytes.getD i 0).toUInt32
    (b 0 ||| (b 1 <<< 8) ||| (b 2 <<< 16) ||| (b 3 <<< 24)) :: words n (bytes.drop 4)

/-- A list in pieces of `size` elements, the last of which may be shorter; the empty list is one
empty piece. -/
def slices {α : Type} (size : Nat) (xs : List α) : List (List α) :=
  let count := (xs.length + size - 1) / size
  go (count - 1) xs
where
  /-- The piece at the front, `n` times, and the rest. -/
  go : Nat → List α → List (List α)
    | 0, xs => [xs]
    | n + 1, xs => xs.take size :: go n (xs.drop size)

/-- The chaining value behind the blocks of a chunk. -/
def chunkChain (counter : UInt64) (isRoot : Bool) (first : Bool) (chain : List Word) :
    List (List UInt8) → List Word
  | [] => chain
  | [block] =>
    compress chain (words 16 block) counter block.length ⟨first, true, false, isRoot⟩
  | block :: more =>
    chunkChain counter isRoot false
      (compress chain (words 16 block) counter block.length ⟨first, false, false, false⟩) more

/-- The chaining value of a chunk. -/
def chunk (counter : UInt64) (isRoot : Bool) (bytes : List UInt8) : List Word :=
  chunkChain counter isRoot true initialChain (slices 64 bytes)

/-- The chaining value of a node of the tree with children. -/
def parent (isRoot : Bool) (left right : List Word) : List Word :=
  compress initialChain (left ++ right) 0 64 ⟨false, false, true, isRoot⟩

/-- Pairs of neighbours become their parents; a last one without a neighbour stays. -/
def pairUp : List (List Word) → List (List Word)
  | left :: right :: more => parent false left right :: pairUp more
  | rest => rest

/-- The root of the tree over chunks, in at most `height` levels. -/
def root : Nat → List (List Word) → List Word
  | _, [] => []
  | _, [single] => single
  | _, [left, right] => parent true left right
  | 0, _ => []
  | height + 1, nodes => root height (pairUp nodes)

/-- The hash of a message as eight words. -/
def hash (message : List UInt8) : List Word :=
  match slices 1024 message with
  | [only] => chunk 0 true only
  | chunks => root chunks.length (chunks.mapIdx fun i bytes => chunk i.toUInt64 false bytes)

/-- A byte as two hexadecimal digits. -/
def hexByte (b : UInt8) : List Char :=
  [Nat.digitChar (b.toNat / 16), Nat.digitChar (b.toNat % 16)]

/-- The bytes of a word, least significant one first. -/
def wordBytes (w : Word) : List UInt8 :=
  [w.toUInt8, (w >>> 8).toUInt8, (w >>> 16).toUInt8, (w >>> 24).toUInt8]

/-- The hash of a text's UTF-8 bytes, in hexadecimal digits. -/
def ofString (text : String) : String :=
  String.ofList ((hash text.toUTF8.toList).flatMap fun w => (wordBytes w).flatMap hexByte)

end SheetLint.Digest
