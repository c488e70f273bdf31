import SheetLint.Proofs.Glob.Front
import SheetLint.Proofs.Path.Inside

/-!
# Globs about the components of a path

Names have no slash, and only a slash has the byte of a slash: in UTF-8 the bytes below 128 stand
for themselves and for nothing else (`ascii_mem_utf8EncodeChar`).  So in the bytes of a path of
names each slash stands before a name (`exists_of_spelledBytes_eq`), and a glob that asks for a
component by its name finds the component and nothing else.

Two globs of this kind are looked at.  One ends with the name, and matches a path whose last
component it is (`tokensDescribe_last_iff`).  The other goes on below the name, and matches a path
with the component among those in front of the last (`tokensDescribe_around_iff`).  These are the
two halves of the globs that exclude dependency directories.

Names are escaped in these globs, so that what they describe is the bytes of the name, whatever
characters it has.
-/

namespace SheetLint.Glob

open String (utf8EncodeChar)
open SheetLint.Path (below spelled IsName)

/-! ### The bytes of names -/

/-- An ASCII character is the only one that has its byte. -/
lemma ascii_mem_utf8EncodeChar {a : Char} (ha : a.val.toNat < 128) (c : Char) :
    UInt8.ofNat a.val.toNat ∈ utf8EncodeChar c ↔ c = a := by
  have hval : c = a ↔ c.val.toNat = a.val.toNat := by
    rw [Char.ext_iff, ← UInt32.toNat_inj]
  have hbyte (n : Nat) :
      UInt8.ofNat a.val.toNat = UInt8.ofNat n ↔ n % 256 = a.val.toNat := by
    rw [eq_comm, ofNat_eq_iff, Nat.mod_eq_of_lt (ha.trans (by decide))]
  rw [hval]
  unfold utf8EncodeChar
  generalize c.val.toNat = x
  simp only []
  split_ifs
  all_goals
    simp only [List.mem_cons, List.not_mem_nil, or_false, hbyte]
    omega

lemma slash_mem_utf8EncodeChar (c : Char) : 47 ∈ utf8EncodeChar c ↔ c = '/' :=
  ascii_mem_utf8EncodeChar (a := '/') (by decide) c

lemma slash_not_mem_bytes {name : String} (h : IsName name) : 47 ∉ bytes name := by
  rw [bytes_eq_flatMap, List.mem_flatMap]
  rintro ⟨c, hc, hslash⟩
  rw [slash_mem_utf8EncodeChar] at hslash
  exact h.2 (hslash ▸ hc)

lemma bytes_injective : Function.Injective bytes := by
  intro a b h
  have htoByteArray (text : String) :
      (text.toList.flatMap utf8EncodeChar).toByteArray = text.toByteArray := by
    conv => rhs; rw [← String.ofList_toList (s := text)]
    rfl
  rw [bytes_eq_flatMap, bytes_eq_flatMap] at h
  rw [← String.toByteArray_inj, ← htoByteArray, h, htoByteArray]

/-- The bytes of names, each behind a slash. -/
def spelledBytes (names : List String) : List UInt8 := names.flatMap fun name => 47 :: bytes name

@[simp] lemma spelledBytes_append (front back : List String) :
    spelledBytes (front ++ back) = spelledBytes front ++ spelledBytes back :=
  List.flatMap_append

lemma spelledBytes_cons (name : String) (names : List String) :
    spelledBytes (name :: names) = 47 :: (bytes name ++ spelledBytes names) := rfl

lemma flatMap_spelled (names : List String) :
    (spelled names).flatMap utf8EncodeChar = spelledBytes names := by
  unfold spelled spelledBytes
  rw [List.flatMap_assoc]
  refine List.flatMap_congr fun name _ => ?_
  rw [List.flatMap_cons, bytes_eq_flatMap]
  rfl

lemma bytes_below {names : List String} (hnames : ∀ name ∈ names, IsName name)
    (hne : names ≠ []) : bytes (below "/" names) = spelledBytes names := by
  rw [bytes_eq_flatMap, Path.toList_below hnames hne, flatMap_spelled]

/-! ### Slashes and names -/

lemma eq_of_append_eq {α : Type} {separator : α} {a b rest rest' : List α}
    (ha : separator ∉ a) (hb : separator ∉ b) (hrest : rest = [] ∨ ∃ more, rest = separator :: more)
    (hrest' : rest' = [] ∨ ∃ more, rest' = separator :: more) (h : a ++ rest = b ++ rest') :
    a = b ∧ rest = rest' := by
  have hnone {front behind rest rest' : List α} (hfront : separator ∉ front ++ behind)
      (hrest : rest = [] ∨ ∃ more, rest = separator :: more) (h : rest = behind ++ rest') :
      behind = [] := by
    cases behind with
    | nil => rfl
    | cons c behind =>
      rcases hrest with rfl | ⟨more, rfl⟩
      · exact nomatch h
      · refine absurd ?_ hfront
        rw [(List.cons.inj h).1]
        simp
  rcases List.append_eq_append_iff.mp h with ⟨behind, rfl, hbehind⟩ | ⟨behind, rfl, hbehind⟩
  · obtain rfl := hnone hb hrest hbehind
    exact ⟨(List.append_nil a).symm, hbehind⟩
  · obtain rfl := hnone ha hrest' hbehind
    exact ⟨List.append_nil b, hbehind.symm⟩

lemma spelledBytes_cases (names : List String) :
    spelledBytes names = [] ∨ ∃ more, spelledBytes names = 47 :: more := by
  cases names with
  | nil => exact Or.inl rfl
  | cons name names => exact Or.inr ⟨_, rfl⟩

/-- **Each slash stands before a name.** -/
lemma exists_of_spelledBytes_eq {names : List String} (hnames : ∀ name ∈ names, IsName name)
    {front back : List UInt8} (h : spelledBytes names = front ++ 47 :: back) :
    ∃ before behind, names = before ++ behind ∧ spelledBytes before = front ∧
      spelledBytes behind = 47 :: back := by
  induction names generalizing front with
  | nil => exact absurd h.symm (List.append_ne_nil_of_right_ne_nil _ (List.cons_ne_nil _ _))
  | cons name names ih =>
    obtain ⟨hname, hrest⟩ := List.forall_mem_cons.mp hnames
    cases front with
    | nil => exact ⟨[], name :: names, rfl, rfl, h⟩
    | cons b front =>
      rw [spelledBytes_cons, List.cons_append, List.cons.injEq] at h
      obtain ⟨rfl, h⟩ := h
      -- the slash does not stand in the name
      obtain ⟨more, rfl, hmore⟩ : ∃ more, front = bytes name ++ more ∧
          spelledBytes names = more ++ 47 :: back := by
        rcases List.append_eq_append_iff.mp h with hbehind | ⟨inner, hsplit, hinner⟩
        · exact hbehind
        · cases inner with
          | nil => exact ⟨[], by rw [hsplit]; simp, hinner.symm⟩
          | cons c inner =>
            have hslash : 47 ∈ bytes name := by
              rw [hsplit, ← (List.cons.inj hinner).1]
              simp
            exact absurd hslash (slash_not_mem_bytes hname)
      obtain ⟨before, behind, rfl, rfl, hbehind⟩ := ih hrest hmore
      exact ⟨name :: before, behind, rfl, rfl, hbehind⟩

/-- **A name behind a slash is a name of the path.** -/
lemma exists_spelledBytes_eq_iff {names : List String} (hnames : ∀ name ∈ names, IsName name)
    {name : String} (hname : IsName name) {rest : List UInt8}
    (hrest : rest = [] ∨ ∃ more, rest = 47 :: more) :
    (∃ front, spelledBytes names = front ++ 47 :: (bytes name ++ rest)) ↔
      ∃ before behind, names = before ++ name :: behind ∧ spelledBytes behind = rest := by
  constructor
  · rintro ⟨front, h⟩
    obtain ⟨before, behind, rfl, -, hbehind⟩ := exists_of_spelledBytes_eq hnames h
    cases behind with
    | nil => exact nomatch hbehind
    | cons first behind =>
      have hfirst : IsName first := hnames first (by simp)
      obtain ⟨heq, hlater⟩ := eq_of_append_eq (slash_not_mem_bytes hfirst)
        (slash_not_mem_bytes hname) (spelledBytes_cases behind) hrest
        (List.cons.inj hbehind).2
      exact ⟨before, behind, by rw [bytes_injective heq], hlater⟩
  · rintro ⟨before, behind, rfl, rfl⟩
    exact ⟨spelledBytes before, by rw [spelledBytes_append, spelledBytes_cons]⟩

/-! ### Globs that ask for a component -/

lemma describes_componentsBetween_iff (text : List UInt8) :
    Token.componentsBetween.expr.Describes text ↔
      text = [47] ∨ ∃ inner, text = 47 :: inner ++ [47] := by
  rw [Token.expr]
  constructor
  · rintro (h | ⟨u, v, rfl, hu, inner, w, rfl, -, hw⟩)
    · exact Or.inl ((describes_slash text).mp h)
    · rw [(describes_slash u).mp hu, (describes_slash w).mp hw]
      exact Or.inr ⟨inner, rfl⟩
  · rintro (rfl | ⟨inner, rfl⟩)
    · exact Or.inl ((describes_slash [47]).mpr rfl)
    · exact Or.inr ⟨[47], inner ++ [47], rfl, (describes_slash [47]).mpr rfl, inner, [47], rfl,
        describes_anything inner, (describes_slash [47]).mpr rfl⟩

/-- The tokens of components between slashes and a name, and others behind them. -/
def componentTokens (name : String) (behind : List Token) : List Token :=
  .componentsBetween :: (name.toList.map escapedToken ++ behind)

lemma tokensDescribe_componentTokens (names : List String) (name : String) (behind : List Token) :
    TokensDescribe (componentTokens name behind) (spelledBytes names) ↔
      ∃ rest, (∃ front, spelledBytes names = front ++ 47 :: (bytes name ++ rest)) ∧
        TokensDescribe behind rest := by
  rw [componentTokens, tokensDescribe_cons]
  constructor
  · rintro ⟨u, v, hsplit, hu, hv⟩
    obtain ⟨w, rest, rfl, hw, hrest⟩ := (tokensDescribe_append _ behind v).mp hv
    rw [(tokensDescribe_escaped name.toList w).mp hw, ← bytes_eq_flatMap] at hsplit
    refine ⟨rest, ?_, hrest⟩
    rcases (describes_componentsBetween_iff u).mp hu with rfl | ⟨inner, rfl⟩
    · exact ⟨[], hsplit⟩
    · exact ⟨47 :: inner, by rw [hsplit, List.append_assoc]; rfl⟩
  · rintro ⟨rest, ⟨front, hsplit⟩, hrest⟩
    refine ⟨front ++ [47], bytes name ++ rest, by rw [hsplit]; simp, ?_, ?_⟩
    -- the bytes of names begin with a slash, if there are any
    · rw [describes_componentsBetween_iff]
      cases front with
      | nil => exact Or.inl rfl
      | cons b front =>
        rcases spelledBytes_cases names with hnil | ⟨more, hmore⟩
        · rw [hnil] at hsplit
          exact nomatch hsplit
        · rw [hmore] at hsplit
          rw [← (List.cons.inj hsplit).1]
          exact Or.inr ⟨front, rfl⟩
    · rw [tokensDescribe_append]
      refine ⟨_, rest, rfl, (tokensDescribe_escaped name.toList _).mpr ?_, hrest⟩
      exact bytes_eq_flatMap name

variable {names : List String} {name : String}

/-- **The last component by its name.** -/
theorem tokensDescribe_last_iff (hnames : ∀ name ∈ names, IsName name) (hname : IsName name) :
    TokensDescribe (componentTokens name []) (spelledBytes names) ↔ names.getLast? = some name := by
  have hnil (behind : List String) : spelledBytes behind = [] ↔ behind = [] := by
    cases behind <;> simp [spelledBytes]
  rw [tokensDescribe_componentTokens, List.getLast?_eq_some_iff]
  constructor
  · rintro ⟨rest, hfront, rfl⟩
    obtain ⟨before, behind, rfl, hbehind⟩ :=
      (exists_spelledBytes_eq_iff hnames hname (Or.inl rfl)).mp hfront
    rw [(hnil behind).mp hbehind]
    exact ⟨before, rfl⟩
  · rintro ⟨before, rfl⟩
    exact
      ⟨[], (exists_spelledBytes_eq_iff hnames hname (Or.inl rfl)).mpr ⟨before, [], rfl, rfl⟩, rfl⟩

/-- **A component by its name**, with others behind it. -/
theorem tokensDescribe_around_iff (hnames : ∀ name ∈ names, IsName name) (hname : IsName name) :
    TokensDescribe (componentTokens name [.componentsLast]) (spelledBytes names) ↔
      name ∈ names.dropLast := by
  rw [tokensDescribe_componentTokens]
  simp only [tokensDescribe_singleton, describes_componentsLast]
  constructor
  · rintro ⟨_, hfront, below, rfl⟩
    obtain ⟨before, behind, rfl, hbehind⟩ :=
      (exists_spelledBytes_eq_iff hnames hname (Or.inr ⟨below, rfl⟩)).mp hfront
    cases behind with
    | nil => exact nomatch hbehind
    | cons second behind =>
      rw [List.dropLast_append_cons, List.dropLast_cons_cons]
      simp
  · intro hmem
    obtain ⟨before, behind, hsplit⟩ := List.append_of_mem hmem
    have hne : names ≠ [] := by
      rintro rfl
      exact nomatch hmem
    -- The last name is not the one asked for but one behind it, so a slash follows the component.
    have hall : names = before ++ name :: (behind ++ [names.getLast hne]) := by
      conv => lhs; rw [← List.dropLast_append_getLast hne, hsplit]
      simp
    have hslash : ∃ below, spelledBytes (behind ++ [names.getLast hne]) = 47 :: below := by
      cases behind <;> exact ⟨_, rfl⟩
    exact ⟨_, (exists_spelledBytes_eq_iff hnames hname (Or.inr hslash)).mpr
      ⟨before, _, hall, rfl⟩, hslash⟩

end SheetLint.Glob
