import SheetLint.Proofs.Except
import SheetLint.Proofs.Glob.Escape

/-!
# What an escaped front leaves of a glob

A glob that begins with an escaped text, and then with a slash or not at all, is read as the tokens
of that text and those of the rest.  The reader knows of the front only that it is there: whatever
it does to its tokens, it does on top of those of the front.  `State.onTop` puts them there, and a
step of the reader is the same step with them and without (`Step.onTop`).  Inside of a choice the
tokens of the front stand in the outermost frame, hence `framesOnTop`.

Only for a `**` it matters whether anything stands before it.  It is components at the front of a
glob, and two stars behind other characters.  So the text behind the front must not begin with a
`**`, which a text that begins with a slash does not; and once a token has been read on top of the
front, the two states agree on whether there is one.

So whether such a glob can be read does not depend on the front (`toOption_readTokens_escape`), and
it matches the paths that begin with the text of the front and go on with what the rest describes:
`matchesPath_ofTokens_escaped`.  Two base directories can then be compared glob by glob.

Readings are compared up to the reason for a failure, of which steps say nothing.
-/

namespace SheetLint.Glob

open String (utf8EncodeChar)

/-- The text is empty, or begins with a slash. -/
def IsBehind (more : List Char) : Prop := more = [] ∨ ∃ rest, more = '/' :: rest

/-- The text begins with a `**` up to a slash or its end. -/
def BeginsWithComponents (text : List Char) : Prop :=
  ∃ rest, text = '*' :: '*' :: rest ∧ IsBehind rest

/-! ### Tokens underneath -/

/-- Frames with further tokens in front of the outermost choice. -/
def framesOnTop (front : List Token) : List Frame → List Frame
  | [] => []
  | [frame] => [⟨frame.outer ++ front, frame.branches⟩]
  | frame :: next :: frames => frame :: framesOnTop front (next :: frames)

/-- The state with further tokens, given in reverse, in front of all others. -/
def State.onTop (front : List Token) (s : State) : State :=
  { s with
    tokens := match s.frames with
      | [] => s.tokens ++ front
      | _ :: _ => s.tokens
    frames := framesOnTop front s.frames }

namespace State

variable {front : List Token} {s : State}

lemma isEmpty_framesOnTop (front : List Token) (frames : List Frame) :
    (framesOnTop front frames).isEmpty = frames.isEmpty := by
  rcases frames with _ | ⟨frame, _ | ⟨next, frames⟩⟩ <;> rfl

lemma push_onTop (front : List Token) (s : State) (c : Char) (t : Token) :
    (s.onTop front).push c t = (s.push c t).onTop front := by
  obtain ⟨before, tokens, frames, plainBrackets⟩ := s
  cases frames <;> rfl

lemma openChoice_onTop (front : List Token) (s : State) :
    (s.onTop front).openChoice = s.openChoice.onTop front := by
  obtain ⟨before, tokens, frames, plainBrackets⟩ := s
  cases frames <;> rfl

lemma comma_onTop (front : List Token) (s : State) :
    (s.onTop front).comma = s.comma.onTop front := by
  obtain ⟨before, tokens, frames, plainBrackets⟩ := s
  rcases frames with _ | ⟨frame, _ | ⟨next, frames⟩⟩ <;> rfl

lemma closeChoice_onTop (front : List Token) (s : State) :
    (s.onTop front).closeChoice = s.closeChoice.map (·.onTop front) := by
  obtain ⟨before, tokens, frames, plainBrackets⟩ := s
  rcases frames with _ | ⟨frame, _ | ⟨next, frames⟩⟩ <;> rfl

lemma twoStars_onTop (front : List Token) (s : State) :
    (s.onTop front).twoStars = s.twoStars.onTop front := by
  obtain ⟨before, tokens, frames, plainBrackets⟩ := s
  cases frames <;> rfl

/-- The state has tokens, if it is outside of all choices. -/
def HasTokens (s : State) : Prop := s.frames = [] → s.tokens ≠ []

lemma isEmpty_tokens_onTop (h : s.HasTokens) :
    (s.onTop front).tokens.isEmpty = s.tokens.isEmpty := by
  obtain ⟨before, tokens, frames, plainBrackets⟩ := s
  cases frames with
  | nil =>
    obtain ⟨t, more, rfl⟩ := List.exists_cons_of_ne_nil (h rfl)
    rfl
  | cons frame frames => rfl

/-- What takes in the slash before it, leaves the tokens of the front alone. -/
lemma replaceSlash_onTop (h : s.HasTokens) (before : Option Char) (t : Token) :
    { s.onTop front with before := before, tokens := (s.onTop front).replaceSlash t } =
      ({ s with before := before, tokens := s.replaceSlash t } : State).onTop front := by
  obtain ⟨_, tokens, frames, plainBrackets⟩ := s
  cases frames with
  | nil =>
    obtain ⟨first, more, rfl⟩ := List.exists_cons_of_ne_nil (h rfl)
    cases first <;> rfl
  | cons frame frames => rfl

/-- A branch without tokens is one of a choice, and its tokens are not those of the front. -/
lemma firstComponents_onTop (front : List Token) (h : s.HasTokens) (hempty : s.tokens = [])
    (before : Option Char) :
    { s.onTop front with before := before, tokens := [.componentsFirst] } =
      ({ s with before := before, tokens := [.componentsFirst] } : State).onTop front := by
  obtain ⟨_, tokens, frames, plainBrackets⟩ := s
  cases frames with
  | nil => exact absurd hempty (h rfl)
  | cons frame frames => rfl

lemma stars_onTop (h : s.HasTokens) (text : List Char) :
    (s.onTop front).stars text = ((s.stars text).1.onTop front, (s.stars text).2) := by
  have hframes : (s.onTop front).frames.isEmpty = s.frames.isEmpty := isEmpty_framesOnTop _ _
  have hbefore : (s.onTop front).before = s.before := rfl
  unfold stars
  simp only [isEmpty_tokens_onTop h, hframes, hbefore]
  cases hempty : s.tokens.isEmpty with
  | true =>
    have hfirst := firstComponents_onTop front h (List.isEmpty_iff.mp hempty)
    simp only [if_true]
    split
    · rw [hfirst]
    · rw [hfirst]
    · rw [twoStars_onTop]
  | false =>
    simp only [Bool.false_eq_true, if_false]
    split
    · rw [twoStars_onTop]
    · split
      · rw [replaceSlash_onTop h]
      · rw [replaceSlash_onTop h]
      · split
        · rw [replaceSlash_onTop h]
        · rw [twoStars_onTop]

/-- Outside of all choices, two stars before anything but a slash or the end have no meaning. -/
lemma stars_of_not_isBehind (hframes : s.frames = []) {text : List Char} (h : ¬ IsBehind text) :
    s.stars text = (s.twoStars, text) := by
  obtain ⟨before, tokens, frames, plainBrackets⟩ := s
  obtain rfl : frames = [] := hframes
  cases text with
  | nil => exact absurd (Or.inl rfl) h
  | cons c rest =>
    have hc : c ≠ '/' := by
      rintro rfl
      exact h (Or.inr ⟨rest, rfl⟩)
    unfold stars
    cases tokens <;> simp [hc]

end State

/-! ### Reading on top of a front -/

variable {front : List Token} {s s' : State} {text rest : List Char}

lemma State.hasTokens_of_ne_nil (h : s.tokens ≠ []) : s.HasTokens := fun _ => h

lemma Step.hasTokens (hstep : Step s text s' rest) : s'.HasTokens := by
  cases hstep with
  | any | many | oneOf | escape | literal => exact State.hasTokens_of_ne_nil (List.cons_ne_nil _ _)
  | stars rest =>
    obtain ⟨-, htwo | ⟨-, hfirst⟩ | ⟨hne, t, -, hslash⟩⟩ := stars_tokens s rest
    · exact State.hasTokens_of_ne_nil (htwo ▸ List.cons_ne_nil _ _)
    · exact State.hasTokens_of_ne_nil (hfirst ▸ List.cons_ne_nil _ _)
    · exact State.hasTokens_of_ne_nil (hslash ▸ replaceSlash_ne_nil hne t)
  | openChoice => exact fun hframes => nomatch hframes
  | closeChoice _ hclose =>
    obtain ⟨frame, frames, -, rfl⟩ := exists_of_closeChoice hclose
    exact State.hasTokens_of_ne_nil (List.cons_ne_nil _ _)
  | comma =>
    rcases comma_cases s with ⟨-, hcomma⟩ | ⟨frame, frames, -, hcomma⟩ <;> rw [hcomma]
    · exact State.hasTokens_of_ne_nil (List.cons_ne_nil _ _)
    · exact fun hframes => nomatch hframes

/-- **A step is the same with a front and without**, unless the front would come before a `**`. -/
lemma Step.onTop (hstep : Step s text s' rest)
    (hs : s.HasTokens ∨ ¬ BeginsWithComponents text) :
    Step (s.onTop front) text (s'.onTop front) rest := by
  cases hstep with
  | any => rw [← State.push_onTop]; exact .any _
  | many _ hhead => rw [← State.push_onTop]; exact .many _ hhead
  | stars rest =>
    have hstars := Step.stars (s := s.onTop front) rest
    rcases hs with hs | htext
    · rwa [State.stars_onTop hs] at hstars
    -- Inside of a choice the front is out of sight; outside, the stars are two stars either way.
    · by_cases hframes : s.frames = []
      · have hrest : ¬ IsBehind rest := fun hrest => htext ⟨rest, rfl, hrest⟩
        have hframes' : (s.onTop front).frames = [] := by
          unfold State.onTop
          rw [hframes]
          rfl
        rw [State.stars_of_not_isBehind hframes' hrest, State.twoStars_onTop] at hstars
        rwa [State.stars_of_not_isBehind hframes hrest]
      · rwa [State.stars_onTop fun hnil => absurd hnil hframes] at hstars
  | oneOf _ hplain hclass => rw [← State.push_onTop]; exact .oneOf _ hplain hclass
  | openChoice => rw [← State.openChoice_onTop]; exact .openChoice _
  | closeChoice _ hclose =>
    refine .closeChoice _ ?_
    rw [State.closeChoice_onTop, hclose]
    rfl
  | comma => rw [← State.comma_onTop]; exact .comma _
  | escape d => rw [← State.push_onTop]; exact .escape d _
  | literal c _ hc hbracket => rw [← State.push_onTop]; exact .literal c _ hc hbracket

lemma exists_step_of_onTop {after : State} (hstep : Step (s.onTop front) text after rest) :
    ∃ s' rest', Step s text s' rest' := by
  cases hstep with
  | any => exact ⟨_, _, .any _⟩
  | many _ hhead => exact ⟨_, _, .many _ hhead⟩
  | stars rest => exact ⟨_, _, .stars rest⟩
  | oneOf _ hplain hclass => exact ⟨_, _, .oneOf _ hplain hclass⟩
  | openChoice => exact ⟨_, _, .openChoice _⟩
  | closeChoice _ hclose =>
    rw [State.closeChoice_onTop] at hclose
    obtain ⟨s', hclose, -⟩ := exists_of_map_eq_ok hclose
    exact ⟨_, _, .closeChoice _ hclose⟩
  | comma => exact ⟨_, _, .comma _⟩
  | escape d => exact ⟨_, _, .escape d _⟩
  | literal c _ hc hbracket => exact ⟨_, _, .literal c _ hc hbracket⟩

/-- **Reading on top of a front.**  It comes to an end exactly if reading without the front does,
and then with the tokens of the front in front.  Any number of rounds is enough that is greater than
the length of the text. -/
lemma tokensFrom_onTop {rounds rounds' : Nat} (hrounds : text.length < rounds)
    (hrounds' : text.length < rounds') (hs : s.HasTokens ∨ ¬ BeginsWithComponents text) :
    (tokensFrom false rounds (s.onTop front) text).toOption =
      (tokensFrom false rounds' s text).toOption.map (·.onTop front) := by
  induction rounds generalizing rounds' s text with
  | zero => exact absurd hrounds (Nat.not_lt_zero _)
  | succ rounds ih =>
    obtain ⟨rounds', rfl⟩ : ∃ more, rounds' = more + 1 := ⟨rounds' - 1, by omega⟩
    cases text with
    | nil => rw [tokensFrom_nil, tokensFrom_nil]; rfl
    | cons c rest =>
      -- A step with the front is one without it, so both readings go on or neither does.
      by_cases hstep : ∃ s' rest', Step s (c :: rest) s' rest'
      · obtain ⟨s', rest', hstep⟩ := hstep
        have hlt := hstep.length_lt
        rw [tokensFrom_of_step (hstep.onTop hs), tokensFrom_of_step hstep]
        exact ih (by omega) (by omega) (Or.inl hstep.hasTokens)
      · have hstuck : (tokensFrom false (rounds' + 1) s (c :: rest)).toOption = none := by
          cases hread : tokensFrom false (rounds' + 1) s (c :: rest) with
          | error defect => rfl
          | ok final =>
            obtain ⟨s', rest', hfirst, -⟩ := exists_step_of_tokensFrom hread
            exact absurd ⟨s', rest', hfirst⟩ hstep
        have hstuckOnTop :
            (tokensFrom false (rounds + 1) (s.onTop front) (c :: rest)).toOption = none := by
          cases hread : tokensFrom false (rounds + 1) (s.onTop front) (c :: rest) with
          | error defect => rfl
          | ok final =>
            obtain ⟨s', rest', hfirst, -⟩ := exists_step_of_tokensFrom hread
            exact absurd (exists_step_of_onTop hfirst) hstep
        rw [hstuck, hstuckOnTop]
        rfl

/-! ### Globs with an escaped front -/

/-- The state behind a slash at the front of a glob. -/
def State.slash : State := ⟨some '/', [.literal '/'], [], false⟩

lemma continues_slash : Continues IsSlash [] State.slash.tokens State.slash.frames :=
  .of_token rfl rfl (Or.inl rfl)

/-- The tokens of a state at the end of a glob, if no choice is open. -/
def State.tokens? (s : State) : Option (List Token) :=
  if s.frames.isEmpty then some s.tokens.reverse else none

lemma toOption_readTokens (glob : List Char) :
    (readTokens false glob).toOption =
      (tokensFrom false (glob.length + 1) ⟨none, [], [], false⟩ glob).toOption.bind
        State.tokens? := by
  unfold readTokens State.tokens?
  cases tokensFrom false (glob.length + 1) ⟨none, [], [], false⟩ glob with
  | error defect => rfl
  | ok s =>
    simp only [bind, Except.bind, Except.toOption, Option.bind_some]
    cases s.frames.isEmpty <;> rfl

lemma State.tokens?_onTop (front : List Token) (s : State) :
    (s.onTop front).tokens? = s.tokens?.map (front.reverse ++ ·) := by
  obtain ⟨before, tokens, frames, plainBrackets⟩ := s
  rcases frames with _ | ⟨frame, _ | ⟨next, frames⟩⟩
  · simp [State.tokens?, State.onTop, framesOnTop]
  · rfl
  · rfl

lemma toOption_readTokens_slash (rest : List Char) :
    (readTokens false ('/' :: rest)).toOption =
      (tokensFrom false (rest.length + 1) State.slash rest).toOption.bind State.tokens? := by
  have hslash : Step ⟨none, [], [], false⟩ ('/' :: rest) State.slash rest :=
    .literal '/' rest rfl (by simp)
  rw [toOption_readTokens, List.length_cons, tokensFrom_of_step hslash]

/-- What stands before a text does not matter as long as nothing has been read. -/
lemma tokensFrom_before (before : Option Char) (rounds : Nat) (c : Char) (rest : List Char) :
    tokensFrom false (rounds + 1) ⟨before, [], [], false⟩ (c :: rest) =
      tokensFrom false (rounds + 1) ⟨none, [], [], false⟩ (c :: rest) := rfl

/-- **Reading behind a front**, which does not depend on the front unless a `**` follows it. -/
lemma toOption_tokensFrom_front (before : Option Char) (front : List Token) {text : List Char}
    (htext : ¬ BeginsWithComponents text) {rounds : Nat} (hrounds : text.length < rounds) :
    (tokensFrom false rounds ⟨before, front, [], false⟩ text).toOption.bind State.tokens? =
      (readTokens false text).toOption.map (front.reverse ++ ·) := by
  have hstate : (⟨before, front, [], false⟩ : State) =
      (⟨before, [], [], false⟩ : State).onTop front := rfl
  rw [hstate, tokensFrom_onTop hrounds (Nat.lt_succ_self text.length) (Or.inr htext),
    toOption_readTokens]
  cases text with
  | nil => simp [tokensFrom_nil, Except.toOption, State.tokens?, State.onTop, framesOnTop]
  | cons c rest =>
    rw [tokensFrom_before]
    rw [Option.bind_map, Option.map_bind]
    exact congrArg _ (funext fun s => State.tokens?_onTop front s)

variable {front more : List Char}

lemma not_beginsWithComponents_of_isBehind (hmore : IsBehind more) :
    ¬ BeginsWithComponents more := by
  rintro ⟨rest, rfl, -⟩
  rcases hmore with h | ⟨more, h⟩
  · exact nomatch h
  · exact absurd (List.cons.inj h).1 (by decide)

/-- **Reading a glob with an escaped front**, which does not depend on the front. -/
theorem toOption_readTokens_escape (hfront : ∀ c ∈ front, IsEscapable c) (hmore : IsBehind more) :
    (readTokens false (escape front ++ more)).toOption =
      (readTokens false more).toOption.map (front.map escapedToken ++ ·) := by
  obtain ⟨rounds, hrounds, hlen⟩ : ∃ rounds,
      (escape front ++ more).length + 1 = front.length + rounds ∧ more.length < rounds := by
    have hle := length_le_escape front
    refine ⟨(escape front).length - front.length + more.length + 1, ?_, by omega⟩
    rw [List.length_append]
    omega
  obtain ⟨⟨before, tokens, frames, plainBrackets⟩, hescaped, hs, htokens⟩ :=
    tokensFrom_escape isPlain_start hfront rounds more
  obtain rfl : frames = [] := hs.1
  obtain rfl : plainBrackets = false := by simpa using hs.2
  obtain rfl : tokens = (front.map escapedToken).reverse := by simpa using htokens
  rw [toOption_readTokens, hrounds, hescaped,
    toOption_tokensFrom_front before _ (not_beginsWithComponents_of_isBehind hmore) hlen,
    List.reverse_reverse]

lemma exists_isSlash_of_readTokens {rest : List Char} {tokens : List Token}
    (h : readTokens false ('/' :: rest) = .ok tokens) :
    ∃ t more, tokens = t :: more ∧ IsSlash t := by
  have hsome : (readTokens false ('/' :: rest)).toOption = some tokens := by rw [h]; rfl
  rw [toOption_readTokens_slash] at hsome
  obtain ⟨s, hread, hsome⟩ := Option.bind_eq_some_iff.mp hsome
  obtain ⟨more, t, houtermost, ht⟩ :=
    continues_slash.tokensFrom (fun _ => id) (eq_ok_of_toOption hread)
  unfold State.tokens? at hsome
  split at hsome
  · next hframes =>
    rw [List.isEmpty_iff.mp hframes, outermost] at houtermost
    refine ⟨t, more.reverse, ?_, ht⟩
    rw [← Option.some.inj hsome, houtermost]
    simp
  · cases hsome

/-- What stands behind an escaped front is not a `**` at the front of a glob. -/
lemma append_ne_componentsFirst {tokens : List Token} (hmore : IsBehind more)
    (htokens : readTokens false more = .ok tokens) (front : List Char) :
    front.map escapedToken ++ tokens ≠ [.componentsFirst] := by
  cases front with
  | cons c front =>
    intro heq
    have hfirst : escapedToken c = .componentsFirst := (List.cons.inj heq).1
    unfold escapedToken at hfirst
    split at hfirst <;> cases hfirst
  | nil =>
    rcases hmore with rfl | ⟨rest, rfl⟩
    · obtain rfl : tokens = [] := (Except.ok.inj htokens).symm
      simp
    · obtain ⟨t, more, rfl, ht⟩ := exists_isSlash_of_readTokens htokens
      intro heq
      obtain rfl : t = .componentsFirst := (List.cons.inj heq).1
      rcases ht with ht | ht | ht <;> exact nomatch ht

/-- **Matching behind an escaped front.** -/
theorem matchesPath_ofTokens_escaped {tokens : List Token} (hmore : IsBehind more)
    (htokens : readTokens false more = .ok tokens) (front : List Char) (path : String) :
    (ofTokens (front.map escapedToken ++ tokens)).matchesPath path = true ↔
      ∃ lower, bytes path = front.flatMap utf8EncodeChar ++ lower ∧
        TokensDescribe tokens lower := by
  rw [matchesPath_ofTokens_iff, tokensDescribe_append]
  constructor
  · intro h
    obtain ⟨u, v, hsplit, hu, hv⟩ := h.resolve_left (append_ne_componentsFirst hmore htokens front)
    rw [(tokensDescribe_escaped front u).mp hu] at hsplit
    exact ⟨v, hsplit, hv⟩
  · rintro ⟨lower, hpath, hlower⟩
    exact Or.inr ⟨_, lower, hpath, (tokensDescribe_escaped front _).mpr rfl, hlower⟩

end SheetLint.Glob
