import Mathlib.Data.List.Induction
import Mathlib.Tactic.ByContra
import SheetLint.Proofs.Stylesheet.Scan

/-!
# Braces and open blocks

The blocks that pieces leave open, by counting: as long as no closing brace is one too many, their
number is the difference of the two counts (`length_openAfter`), and behind the brace of an open
block the braces match but for those of the blocks inside it (`exists_of_openAfter`).

Pieces are judged one by one, and judging them is following the open blocks.  So pieces among which
nothing goes wrong can be judged at once: what follows them is judged with the blocks that they
leave open and with their comments, `judge_append`.

Prefixes are what counting is about, in `NeverBelow`, and so there are two ways to take a list
apart.  From the front, the first piece changes the number of blocks that are open before the others
(`neverBelow_cons`); from the back, the last one adds one condition (`neverBelow_concat`).
Statements about what is open behind a list go by the latter.
-/

namespace SheetLint.Stylesheet

open Text (Place)

variable {d : Dialect}

/-! ### Counting braces -/

lemma opens_append (a b : List (Place × Piece)) : opens (a ++ b) = opens a + opens b :=
  List.countP_append

lemma closes_append (a b : List (Place × Piece)) : closes (a ++ b) = closes a + closes b :=
  List.countP_append

lemma neverBelow_nil (n : Nat) : NeverBelow n [] := by
  intro front hfront
  rw [List.prefix_nil.1 hfront]
  exact Nat.zero_le _

/-- Counting from the front: behind the first piece there is one brace more or less to close. -/
lemma neverBelow_cons (n : Nat) (p : Place × Piece) (ps : List (Place × Piece)) :
    NeverBelow n (p :: ps) ↔
      closes [p] ≤ n + opens [p] ∧ NeverBelow (n + opens [p] - closes [p]) ps := by
  constructor
  · intro h
    have hone := h [p] (by simp)
    refine ⟨hone, ?_⟩
    intro front hfront
    have hmore := h (p :: front) ((List.prefix_cons_inj p).2 hfront)
    rw [← List.singleton_append, closes_append, opens_append] at hmore
    omega
  · rintro ⟨hone, h⟩ front hfront
    rcases List.prefix_cons_iff.1 hfront with rfl | ⟨tail, rfl, htail⟩
    · exact Nat.zero_le _
    · have hmore := h tail htail
      rw [← List.singleton_append, closes_append, opens_append]
      omega

@[simp] lemma opens_open (place : Place) : opens [(place, .single '\x7b')] = 1 := by
  simp [opens]

@[simp] lemma closes_open (place : Place) : closes [(place, .single '\x7b')] = 0 := by
  simp [closes]

@[simp] lemma opens_close (place : Place) : opens [(place, .single '\x7d')] = 0 := by
  simp [opens]

@[simp] lemma closes_close (place : Place) : closes [(place, .single '\x7d')] = 1 := by
  simp [closes]

/-- The piece is no brace. -/
def Piece.IsNoBrace (piece : Piece) : Prop := piece ≠ .single '\x7b' ∧ piece ≠ .single '\x7d'

lemma opens_other {p : Place × Piece} (h : p.2.IsNoBrace) : opens [p] = 0 := by
  simp [opens, h.1]

lemma closes_other {p : Place × Piece} (h : p.2.IsNoBrace) : closes [p] = 0 := by
  simp [closes, h.2]

lemma Piece.brace_cases (piece : Piece) :
    piece = .single '\x7b' ∨ piece = .single '\x7d' ∨ piece.IsNoBrace := by
  by_cases hopen : piece = .single '\x7b'
  · exact Or.inl hopen
  · by_cases hclose : piece = .single '\x7d'
    · exact Or.inr (Or.inl hclose)
    · exact Or.inr (Or.inr ⟨hopen, hclose⟩)

lemma neverBelow_concat (n : Nat) (ps : List (Place × Piece)) (p : Place × Piece) :
    NeverBelow n (ps ++ [p]) ↔
      NeverBelow n ps ∧ closes ps + closes [p] ≤ n + (opens ps + opens [p]) := by
  constructor
  · intro h
    refine ⟨fun front hfront => h front (hfront.trans (List.prefix_append ps [p])), ?_⟩
    have hall := h _ (List.prefix_refl _)
    rwa [closes_append, opens_append] at hall
  · rintro ⟨h, hall⟩ front hfront
    rcases List.prefix_concat_iff.1 hfront with rfl | hfront
    · rwa [closes_append, opens_append]
    · exact h front hfront

/-- A closing brace too many has a first one. -/
lemma exists_of_not_neverBelow {n : Nat} {ps : List (Place × Piece)} (h : ¬ NeverBelow n ps) :
    ∃ front place rest, ps = front ++ (place, .single '\x7d') :: rest ∧ NeverBelow n front ∧
      closes front = n + opens front := by
  induction ps using List.reverseRecOn with
  | nil => exact absurd (neverBelow_nil n) h
  | append_singleton ps p ih =>
    by_cases hps : NeverBelow n ps
    · have hlast : ¬ closes ps + closes [p] ≤ n + (opens ps + opens [p]) := fun hle =>
        h ((neverBelow_concat n ps p).2 ⟨hps, hle⟩)
      have hall := hps ps (List.prefix_refl ps)
      obtain ⟨place, piece⟩ := p
      rcases piece.brace_cases with rfl | rfl | hother
      · rw [opens_open, closes_open] at hlast
        omega
      · rw [opens_close, closes_close] at hlast
        exact ⟨ps, place, [], rfl, hps, by omega⟩
      · rw [opens_other hother, closes_other hother] at hlast
        omega
    · obtain ⟨front, place, rest, rfl, hfront, hcount⟩ := ih hps
      exact ⟨front, place, rest ++ [p], by simp, hfront, hcount⟩

/-! ### Open blocks -/

/-- The blocks that are open behind pieces, if `blocks` are open before them. -/
def openAfter (d : Dialect) (blocks : List Place) : List (Place × Piece) → List Place
  | [] => blocks
  | (place, piece) :: rest =>
    if piece = .single '\x7b' ∧ d.hasBraces then openAfter d (place :: blocks) rest
    else if piece = .single '\x7d' ∧ d.hasBraces then openAfter d blocks.tail rest
    else openAfter d blocks rest

section

variable (place : Place) (blocks : List Place) (rest : List (Place × Piece))

lemma openAfter_open (hd : d.hasBraces = true) :
    openAfter d blocks ((place, .single '\x7b') :: rest) = openAfter d (place :: blocks) rest := by
  rw [openAfter, if_pos ⟨rfl, hd⟩]

lemma openAfter_close (hd : d.hasBraces = true) :
    openAfter d blocks ((place, .single '\x7d') :: rest) = openAfter d blocks.tail rest := by
  rw [openAfter, if_neg (by simp), if_pos ⟨rfl, hd⟩]

lemma openAfter_other {piece : Piece} (h : piece.IsNoBrace) :
    openAfter d blocks ((place, piece) :: rest) = openAfter d blocks rest := by
  rw [openAfter, if_neg (fun hp => h.1 hp.1), if_neg (fun hp => h.2 hp.1)]

end

lemma openAfter_of_not_hasBraces (h : ¬ d.hasBraces = true) (blocks : List Place)
    (ps : List (Place × Piece)) : openAfter d blocks ps = blocks := by
  induction ps with
  | nil => rfl
  | cons p ps ih =>
    rw [openAfter, if_neg (fun hp => h hp.2), if_neg (fun hp => h hp.2)]
    exact ih

lemma openAfter_append (blocks : List Place) (a b : List (Place × Piece)) :
    openAfter d blocks (a ++ b) = openAfter d (openAfter d blocks a) b := by
  induction a generalizing blocks with
  | nil => rfl
  | cons p a ih =>
    obtain ⟨place, piece⟩ := p
    simp only [List.cons_append, openAfter]
    split
    · exact ih _
    · split
      · exact ih _
      · exact ih _

lemma length_openAfter (hd : d.hasBraces = true) (blocks : List Place)
    (ps : List (Place × Piece)) (h : NeverBelow blocks.length ps) :
    (openAfter d blocks ps).length + closes ps = blocks.length + opens ps := by
  induction ps generalizing blocks with
  | nil => rfl
  | cons p ps ih =>
    obtain ⟨place, piece⟩ := p
    obtain ⟨hone, hrest⟩ := (neverBelow_cons _ _ _).1 h
    rw [← List.singleton_append, closes_append, opens_append, List.singleton_append]
    rcases piece.brace_cases with rfl | rfl | hother
    · rw [opens_open, closes_open] at *
      have hcount := ih (place :: blocks) hrest
      rw [openAfter_open _ _ _ hd]
      simp only [List.length_cons] at hcount
      omega
    · rw [opens_close, closes_close] at *
      have hcount := ih blocks.tail (by rw [List.length_tail]; exact hrest)
      rw [openAfter_close _ _ _ hd]
      rw [List.length_tail] at hcount
      omega
    · rw [opens_other hother, closes_other hother] at *
      have hcount := ih blocks hrest
      rw [openAfter_other _ _ _ hother]
      omega

/-- Blocks that were open before and are not closed stay as they are. -/
lemma openAfter_append_blocks (hd : d.hasBraces = true) (inner outer : List Place)
    (ps : List (Place × Piece)) (h : NeverBelow inner.length ps) :
    openAfter d (inner ++ outer) ps = openAfter d inner ps ++ outer := by
  induction ps generalizing inner with
  | nil => rfl
  | cons p ps ih =>
    obtain ⟨place, piece⟩ := p
    obtain ⟨hone, hrest⟩ := (neverBelow_cons _ _ _).1 h
    rcases piece.brace_cases with rfl | rfl | hother
    · rw [openAfter_open _ _ _ hd, openAfter_open _ _ _ hd]
      rw [opens_open, closes_open] at hrest
      exact ih (place :: inner) hrest
    · rw [openAfter_close _ _ _ hd, openAfter_close _ _ _ hd]
      rw [opens_close, closes_close] at hone hrest
      cases inner with
      | nil => simp at hone
      | cons block inner => exact ih inner hrest
    · rw [openAfter_other _ _ _ hother, openAfter_other _ _ _ hother]
      rw [opens_other hother, closes_other hother] at hrest
      exact ih inner hrest

/-- **An open block.**  Behind its brace there are as many closing braces as opening ones, apart
from those of the blocks inside it. -/
lemma exists_of_openAfter (hd : d.hasBraces = true) (inner : List Place)
    {ps : List (Place × Piece)} {outer : List Place} {place : Place}
    (h : openAfter d [] ps = inner ++ place :: outer) :
    ∃ front rest, ps = front ++ (place, .single '\x7b') :: rest ∧ NeverBelow 0 rest ∧
      opens rest = closes rest + inner.length := by
  -- An opening brace at the end is the block itself or one inside of it; a closing one has closed a
  -- block inside, which was open before.
  induction ps using List.reverseRecOn generalizing inner with
  | nil => simp [openAfter] at h
  | append_singleton ps p ih =>
    obtain ⟨last, piece⟩ := p
    rw [openAfter_append] at h
    rcases piece.brace_cases with rfl | rfl | hother
    · rw [openAfter_open _ _ _ hd, openAfter] at h
      cases inner with
      | nil =>
        obtain ⟨rfl, -⟩ := List.cons.inj h
        exact ⟨ps, [], rfl, neverBelow_nil 0, rfl⟩
      | cons block inner =>
        obtain ⟨front, rest, rfl, hbelow, hcount⟩ := ih inner (List.cons.inj h).2
        refine ⟨front, rest ++ [(last, .single '\x7b')], by simp, ?_, ?_⟩
        · rw [neverBelow_concat, opens_open, closes_open]
          exact ⟨hbelow, by omega⟩
        · rw [opens_append, closes_append, opens_open, closes_open, List.length_cons]
          omega
    · rw [openAfter_close _ _ _ hd, openAfter] at h
      obtain ⟨block, hblock⟩ : ∃ block, openAfter d [] ps = block :: (inner ++ place :: outer) := by
        cases hopen : openAfter d [] ps with
        | nil => simp [hopen] at h
        | cons block blocks => exact ⟨block, by rw [← h, hopen, List.tail_cons]⟩
      obtain ⟨front, rest, rfl, hbelow, hcount⟩ := ih (block :: inner) hblock
      rw [List.length_cons] at hcount
      refine ⟨front, rest ++ [(last, .single '\x7d')], by simp, ?_, ?_⟩
      · rw [neverBelow_concat, opens_close, closes_close]
        exact ⟨hbelow, by omega⟩
      · rw [opens_append, closes_append, opens_close, closes_close]
        omega
    · rw [openAfter_other _ _ _ hother, openAfter] at h
      obtain ⟨front, rest, rfl, hbelow, hcount⟩ := ih inner h
      refine ⟨front, rest ++ [(last, piece)], by simp, ?_, ?_⟩
      · rw [neverBelow_concat, opens_other hother, closes_other hother]
        exact ⟨hbelow, by omega⟩
      · rw [opens_append, closes_append, opens_other hother, closes_other hother]
        omega

/-! ### Judging pieces -/

/-- **Nothing wrong so far.**  What is judged behind such pieces is judged with their comments and
with the blocks that they leave open. -/
lemma judge_append (blocks : List Place) (comments : List Comment)
    (front rest : List (Place × Piece)) (hclosed : ∀ p ∈ front, p.2.IsClosed)
    (hbraces : d.hasBraces = true → NeverBelow blocks.length front) :
    judge d blocks comments (front ++ rest) =
      judge d (openAfter d blocks front) ((commentsOf front).reverse ++ comments) rest := by
  induction front generalizing blocks comments with
  | nil => rfl
  | cons p front ih =>
    obtain ⟨place, piece⟩ := p
    have hpiece : piece.IsClosed := hclosed (place, piece) (by simp)
    have hfront : ∀ p ∈ front, p.2.IsClosed := fun p hp => hclosed p (by simp [hp])
    have hbelow := fun hd => (neverBelow_cons _ _ _).1 (hbraces hd)
    have hother : piece.IsNoBrace → d.hasBraces = true → NeverBelow blocks.length front := by
      intro hno hd
      have hrest := (hbelow hd).2
      rwa [opens_other hno, closes_other hno] at hrest
    have hplain (hne : ∀ c, piece ≠ .single c) : piece.IsNoBrace := ⟨hne _, hne _⟩
    cases piece with
    | openBlock text => exact absurd hpiece (by simp [Piece.IsClosed])
    | openQuoted quote text => exact absurd hpiece (by simp [Piece.IsClosed])
    | block | line | quoted | escape =>
      have hno := hplain (by simp)
      rw [List.cons_append, judge, openAfter_other _ _ _ hno, ih _ _ hfront (hother hno)]
      simp [commentsOf, Piece.comment?]
    | single c =>
      have hcomments : commentsOf ((place, .single c) :: front) = commentsOf front := by
        simp [commentsOf, Piece.comment?]
      rw [List.cons_append, judge_single, openAfter, hcomments]
      simp only [Piece.single.injEq]
      split
      · rename_i hopen
        obtain ⟨rfl, hd⟩ := hopen
        have hrest := (hbelow hd).2
        rw [opens_open, closes_open] at hrest
        exact ih _ _ hfront fun _ => hrest
      · split
        · rename_i hclose
          obtain ⟨rfl, hd⟩ := hclose
          obtain ⟨hone, hrest⟩ := hbelow hd
          rw [opens_close, closes_close] at hone hrest
          cases blocks with
          | nil => simp at hone
          | cons block outer => exact ih _ _ hfront fun _ => hrest
        · rename_i hopen hclose
          refine ih _ _ hfront ?_
          intro hd
          refine hother ⟨?_, ?_⟩ hd
          · intro hc
            exact hopen ⟨Piece.single.inj hc, hd⟩
          · intro hc
            exact hclose ⟨Piece.single.inj hc, hd⟩

end SheetLint.Stylesheet
