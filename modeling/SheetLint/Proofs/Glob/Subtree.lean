import SheetLint.Proofs.Glob.Language
import SheetLint.Proofs.Glob.Reading

/-!
# A glob and what it says with `/**` at its end

A glob that ends in `/**` describes what is below the paths that the glob without this ending
describes.  The ending is read in one of two ways: as a token of its own, or, where the glob already
ends in components, not at all.  `Deepens` names these two, and reading keeps them
(`deepens_of_tokensFrom`).

Only two stars at the end of the glob need care, since they are read differently with the ending and
without (`deepens_stars`): before a slash they are components between slashes, at the end they are
components that come last.

So what a glob matches, the glob with `/**` matches below (`matchesPath_below`).  This is why a walk
may leave out a directory that an exclusion for directories matches: every file below it is excluded
as well.
-/

namespace SheetLint.Glob

/-! ### Components at the front -/

/-- Components at the front come last only where nothing else has been read. -/
def FirstAlone (s : State) : Prop :=
  ∀ tokens, s.tokens = .componentsFirst :: tokens → tokens = []

lemma FirstAlone.replaceSlash {s : State} (h : FirstAlone s) {t : Token}
    (ht : t ≠ .componentsFirst) :
    ∀ tokens, s.replaceSlash t = .componentsFirst :: tokens → tokens = [] := by
  intro tokens htokens
  unfold State.replaceSlash at htokens
  split at htokens
  · next heq => exact h tokens htokens
  · next heq => rw [heq] at htokens; exact nomatch htokens
  · next heq => exact absurd (List.cons.inj htokens).1 ht

lemma FirstAlone.step {s s' : State} {text rest : List Char} (hstep : Step s text s' rest)
    (h : FirstAlone s) : FirstAlone s' := by
  cases hstep with
  | stars rest =>
    obtain ⟨-, htwo | ⟨-, hfirst⟩ | ⟨-, t, ht, hslash⟩⟩ := stars_tokens s rest
    · intro tokens htokens
      rw [htwo] at htokens
      exact nomatch htokens
    · intro tokens htokens
      rw [hfirst] at htokens
      exact (List.cons.inj htokens).2.symm
    · intro tokens htokens
      rw [hslash] at htokens
      exact h.replaceSlash (by rcases ht with rfl | rfl <;> exact Token.noConfusion) tokens htokens
  | closeChoice _ hclose =>
    obtain ⟨frame, frames, -, rfl⟩ := exists_of_closeChoice hclose
    intro tokens htokens
    exact nomatch htokens
  | comma =>
    rcases comma_cases s with ⟨-, hcomma⟩ | ⟨frame, frames, -, hcomma⟩ <;> rw [hcomma] <;>
      exact fun tokens htokens => nomatch htokens
  | any | many | oneOf | openChoice | escape | literal =>
    intro tokens htokens
    exact nomatch htokens

/-! ### Reading the ending -/

/-- The ending `/**`. -/
def subtreeEnding : List Char := ['/', '*', '*']

/-- The state with components behind a slash as its last token. -/
def State.pushSubtree (s : State) : State :=
  { s with before := some '*', tokens := .componentsLast :: s.tokens }

lemma stars_nil_of_before {s : State} (hne : s.tokens ≠ []) (hslash : s.before = some '/') :
    s.stars [] = ({ s with before := some '*', tokens := s.replaceSlash .componentsLast }, []) := by
  unfold State.stars
  dsimp only
  rw [if_neg (by simpa using hne), if_neg (by simp [hslash])]

lemma tokensFrom_subtreeEnding (s : State) (rounds : Nat) (h : 3 ≤ rounds) :
    tokensFrom false rounds s subtreeEnding = .ok s.pushSubtree := by
  obtain ⟨rounds, rfl⟩ : ∃ more, rounds = more + 2 := ⟨rounds - 2, by omega⟩
  have hslash : Step s subtreeEnding (s.push '/' (.literal '/')) ['*', '*'] :=
    .literal '/' _ rfl (by simp)
  have hstars := stars_nil_of_before (s := s.push '/' (.literal '/')) (by simp [State.push]) rfl
  rw [tokensFrom_of_step hslash, tokensFrom_of_step (.stars []), hstars, tokensFrom_nil]
  rfl

/-- What the ending `/**` makes of a glob: a token of its own, or nothing new where the glob ends in
a token that takes in everything below. -/
def Deepens (s deep : State) : Prop :=
  deep.tokens = .componentsLast :: s.tokens ∨
    deep.tokens = s.tokens ∧
      (s.tokens = [.componentsFirst] ∨ ∃ tokens, s.tokens = .componentsLast :: tokens)

/-- A slash that has become components between slashes becomes components at the end. -/
lemma replaceSlash_twice {s : State} (hs : FirstAlone s) (hne : s.tokens ≠ [])
    (before : Option Char) :
    State.replaceSlash { s with before := before, tokens := s.replaceSlash .componentsBetween }
        .componentsLast = s.replaceSlash .componentsLast ∧
      (s.replaceSlash .componentsLast = [.componentsFirst] ∨
        ∃ tokens, s.replaceSlash .componentsLast = .componentsLast :: tokens) := by
  obtain ⟨t, tokens, htokens⟩ := List.exists_cons_of_ne_nil hne
  unfold State.replaceSlash
  cases t <;> simp only [htokens] <;> simp
  exact hs tokens htokens

/-- Two stars at the end, and the same two stars before `/**`. -/
lemma deepens_stars {s deep : State} (hs : FirstAlone s) {rounds : Nat} (hrounds : 4 ≤ rounds)
    (h : tokensFrom false rounds s ('*' :: '*' :: subtreeEnding) = .ok deep) :
    Deepens (s.stars []).1 deep := by
  obtain ⟨rounds, rfl⟩ : ∃ more, rounds = more + 2 := ⟨rounds - 2, by omega⟩
  rw [tokensFrom_of_step (.stars subtreeEnding)] at h
  -- Nothing before the stars: they are components at the front, with the ending and without.
  by_cases hempty : s.tokens = []
  -- Behind a slash they are components already, which the ending does not change.
  · have hplain : s.stars [] =
        ({ s with before := some '*', tokens := [.componentsFirst] }, []) := by
      unfold State.stars
      simp [hempty]
    have hdeep : s.stars subtreeEnding =
        ({ s with before := some '/', tokens := [.componentsFirst] }, ['*', '*']) := by
      unfold State.stars subtreeEnding
      simp [hempty]
    rw [hdeep] at h
    rw [tokensFrom_of_step (.stars []), stars_nil_of_before (by simp) rfl, tokensFrom_nil] at h
    cases h
    rw [hplain]
    exact Or.inr ⟨rfl, Or.inl rfl⟩
  -- Behind anything but a slash the stars have no meaning, and the ending is a token of its own.
  · by_cases htwo : (s.before != some '/' &&
        !(!s.frames.isEmpty && (s.before == some ',' || s.before == some '\x7b'))) = true
    · have hplain : s.stars [] = (s.twoStars, []) := by
        unfold State.stars
        dsimp only
        rw [if_neg (by simpa using hempty), if_pos htwo]
      have hdeep : s.stars subtreeEnding = (s.twoStars, subtreeEnding) := by
        unfold State.stars
        dsimp only
        rw [if_neg (by simpa using hempty), if_pos htwo]
      rw [hdeep, tokensFrom_subtreeEnding _ _ (by omega)] at h
      cases h
      rw [hplain]
      exact Or.inl rfl
    · have hplain : s.stars [] =
          ({ s with before := some '*', tokens := s.replaceSlash .componentsLast }, []) := by
        unfold State.stars
        dsimp only
        rw [if_neg (by simpa using hempty), if_neg htwo]
      have hdeep : s.stars subtreeEnding =
          ({ s with before := some '/', tokens := s.replaceSlash .componentsBetween },
            ['*', '*']) := by
        unfold State.stars subtreeEnding
        dsimp only
        rw [if_neg (by simpa using hempty), if_neg htwo]
        rfl
      rw [hdeep, tokensFrom_of_step (.stars []),
        stars_nil_of_before (replaceSlash_ne_nil hempty _) rfl, tokensFrom_nil] at h
      cases h
      rw [hplain]
      exact Or.inr (replaceSlash_twice hs hempty _)

/-- **Reading on.**  A glob that ends outside of all choices is deepened by `/**`. -/
lemma deepens_of_tokensFrom {rounds more : Nat} {s plain deep : State} {text : List Char}
    (hrounds : text.length < rounds) (hmore : text.length + 3 ≤ more) (hs : FirstAlone s)
    (hplain : tokensFrom false rounds s text = .ok plain)
    (hdeep : tokensFrom false more s (text ++ subtreeEnding) = .ok deep) : Deepens plain deep := by
  induction rounds generalizing more s text with
  | zero => exact absurd hrounds (Nat.not_lt_zero _)
  | succ rounds ih =>
    obtain ⟨more, rfl⟩ : ∃ k, more = k + 1 := ⟨more - 1, by omega⟩
    cases text with
    | nil =>
      rw [List.nil_append, tokensFrom_subtreeEnding s _ hmore] at hdeep
      cases hplain
      cases hdeep
      exact Or.inl rfl
    | cons c rest =>
      -- the only step that takes notice of what stands behind the glob
      by_cases hstars : c :: rest = ['*', '*']
      · rw [hstars] at hplain hdeep
        rw [tokensFrom_of_step (.stars [])] at hplain
        rw [show (s.stars []).2 = [] from List.suffix_nil.mp (stars_suffix s []),
          tokensFrom_nil] at hplain
        cases hplain
        rw [hstars] at hmore
        exact deepens_stars hs (Nat.le_of_succ_le hmore) hdeep
      · obtain ⟨s', rest', hstep, hread⟩ := exists_step_of_tokensFrom hplain
        have hlt := hstep.length_lt
        have hstepDeep : Step s (c :: rest ++ subtreeEnding) s' (rest' ++ subtreeEnding) :=
          hstep.append hstars ['*', '*']
        rw [tokensFrom_of_step hstepDeep] at hdeep
        exact ih (by omega) (by omega) (hs.step hstep) hread hdeep

/-- **Below a described path.**  If a glob matches a path, then the glob with `/**` at its end
matches every absolute path below that path. -/
theorem matchesPath_below {glob : String} {g deep : Glob} (hg : read false glob = .ok g)
    (hdeep : read false (glob ++ String.ofList subtreeEnding) = .ok deep) {path : String}
    (h : g.matchesPath path = true) {lower : String} {below inner : List UInt8}
    (hlower : bytes lower = bytes path ++ 47 :: below) (habsolute : bytes lower = 47 :: inner) :
    deep.matchesPath lower = true := by
  obtain ⟨s, hread, -, rfl⟩ := (read_eq_ok_iff glob g).mp hg
  obtain ⟨sd, hreadDeep, -, rfl⟩ := (read_eq_ok_iff _ deep).mp hdeep
  rw [String.toList_append, String.toList_ofList] at hreadDeep
  have hdeepens : Deepens s sd := by
    have hs : FirstAlone ⟨none, [], [], false⟩ := fun _ htokens => nomatch htokens
    have hlen : (glob.toList ++ subtreeEnding).length = glob.toList.length + 3 := by
      rw [List.length_append]
      rfl
    exact deepens_of_tokensFrom (Nat.lt_succ_self _) (by omega) hs hread hreadDeep
  rw [matchesPath_ofTokens_iff] at h ⊢
  -- The ending is a new token, or the glob is `**`, or it ends in components already.
  rcases hdeepens with hnew | ⟨hsame, hfirst | ⟨tokens, hlast⟩⟩
  · right
    rw [hnew, List.reverse_cons, tokensDescribe_append]
    rcases h with hfirst | h
    · rw [hfirst]
      refine ⟨[], bytes lower, rfl, ?_, ?_⟩
      · rw [tokensDescribe_singleton]
        exact Or.inl rfl
      · rw [tokensDescribe_singleton, describes_componentsLast]
        exact ⟨inner, habsolute⟩
    · refine ⟨bytes path, 47 :: below, hlower, h, ?_⟩
      rw [tokensDescribe_singleton, describes_componentsLast]
      exact ⟨below, rfl⟩
  · left
    rw [hsame, hfirst]
    rfl
  · right
    rw [hlast] at h
    rw [hsame, hlast]
    rw [List.reverse_cons] at h ⊢
    have hne : tokens.reverse ++ [.componentsLast] ≠ [.componentsFirst] := by
      intro heq
      have hends := congrArg List.getLast? heq
      rw [List.getLast?_concat] at hends
      exact nomatch Option.some.inj hends
    have h := h.resolve_left hne
    rw [tokensDescribe_append] at h ⊢
    obtain ⟨u, v, hpath, hu, hv⟩ := h
    rw [tokensDescribe_singleton, describes_componentsLast] at hv
    obtain ⟨b, rfl⟩ := hv
    refine ⟨u, 47 :: (b ++ 47 :: below), ?_, hu, ?_⟩
    · rw [hlower, hpath, List.append_assoc, List.cons_append]
    · rw [tokensDescribe_singleton, describes_componentsLast]
      exact ⟨_, rfl⟩

end SheetLint.Glob
