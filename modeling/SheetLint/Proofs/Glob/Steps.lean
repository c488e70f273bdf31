import SheetLint.Proofs.Glob.Components

/-!
# Globs made of steps

The glob of a pattern spells its steps, each behind a slash.  A step that is a glob by itself is
read there as the same tokens (`toOption_readTokens_append`), unless it is `**`, which takes in the
slash before it.

So a glob whose steps match single names matches a path component by component: each step takes one
name, `**` any number of them.  `Aligned` is this relation, and `matchesByComponents` the theorem,
by induction on the steps.  A step `**` is looked at together with the one behind it, since the
slash between them belongs to its token.

The condition on a step is `IsComponent`: it is `**`, or matches no name with a slash.  It holds of
steps made of wildcards and ordinary characters (`isComponent_of_simple`).  It does not hold of
every step: a class such as `[!a]` matches a slash too.

At the end stands what is needed for names that begin with a dot.  A step that takes one begins with
a dot itself, or with a character at which a glob can go on in more than one way
(`StepMatches.begins`).
-/

namespace SheetLint.Glob

open String (utf8EncodeChar)
open SheetLint.Path (spelled IsName)

/-! ### Reading a step with more behind it -/

section

variable {s s' final : State} {text rest step more : List Char} {tokens : List Token}

lemma Step.before_ne (hstep : Step s text s' rest) (htext : '/' ∉ text) :
    s'.before ≠ some '/' := by
  cases hstep with
  | any | many | oneOf | openChoice => simp [State.push, State.openChoice]
  | stars rest =>
    rw [stars_before s fun hmem => htext (by simp [hmem])]
    simp
  | closeChoice _ hclose =>
    obtain ⟨frame, frames, -, rfl⟩ := exists_of_closeChoice hclose
    simp
  | comma =>
    rcases comma_cases s with ⟨-, hcomma⟩ | ⟨frame, frames, -, hcomma⟩ <;> rw [hcomma] <;>
      simp [State.push]
  | escape d => simpa [State.push, eq_comm] using fun heq : d = '/' => htext (by simp [heq])
  | literal c => simpa [State.push, eq_comm] using fun heq : c = '/' => htext (by simp [heq])

lemma Step.plainBrackets_eq (hstep : Step s text s' rest) : s'.plainBrackets = s.plainBrackets := by
  cases hstep with
  | any | many | oneOf | openChoice | escape | literal => rfl
  | stars rest => exact stars_plainBrackets s rest
  | closeChoice _ hclose =>
    obtain ⟨frame, frames, -, rfl⟩ := exists_of_closeChoice hclose
    rfl
  | comma =>
    rcases comma_cases s with ⟨-, hcomma⟩ | ⟨frame, frames, -, hcomma⟩ <;> rw [hcomma]
    rfl

/-- Two stars that stand behind something else than a slash have no meaning. -/
lemma stars_of_before_ne (hs : s.HasTokens) (hbefore : s.before ≠ some '/')
    (hframes : s.frames = []) (text : List Char) : s.stars text = (s.twoStars, text) := by
  have hne := hs hframes
  unfold State.stars
  simp [hne, hbefore, hframes]

/-- A step takes no notice of what stands behind the text, where two stars at the end of the text
have no meaning. -/
lemma Step.append_isBehind (hstep : Step s text s' rest) (hmore : IsBehind more)
    (hstars : text = ['*', '*'] → s.HasTokens ∧ s.before ≠ some '/' ∧ s.frames = []) :
    Step s (text ++ more) s' (rest ++ more) := by
  rcases hmore with rfl | ⟨more, rfl⟩
  · simpa using hstep
  · by_cases htext : text = ['*', '*']
    · obtain ⟨hs, hbefore, hframes⟩ := hstars htext
      subst htext
      have hplain := stars_of_before_ne hs hbefore hframes
      cases hstep with
      | stars =>
        have hmore := Step.stars (s := s) ('/' :: more)
        rw [hplain] at hmore
        rw [hplain]
        exact hmore
      | many _ hhead => exact absurd rfl hhead
      | literal _ _ hspecial => exact nomatch hspecial
    · exact hstep.append htext more

lemma frames_eq_nil_of_stars {rounds : Nat} (hstep : Step s ['*', '*'] s' rest)
    (hread : tokensFrom false rounds s' rest = .ok final) (hframes : final.frames = []) :
    s.frames = [] := by
  cases hstep with
  | stars =>
    rw [List.suffix_nil.mp (stars_suffix s []), tokensFrom_nil] at hread
    cases hread
    exact (stars_tokens s []).1 ▸ hframes
  | many _ hhead => exact absurd rfl hhead
  | literal _ _ hspecial => exact nomatch hspecial

/-- **Reading on.**  A text without slashes that ends outside of all choices is read in the same way
when a slash follows it. -/
lemma exists_tokensFrom_append {rounds : Nat} (hread : tokensFrom false rounds s text = .ok final)
    (hrounds : text.length < rounds) (hslash : '/' ∉ text) (hmore : IsBehind more)
    (hs : s.HasTokens ∧ s.before ≠ some '/' ∨ text ≠ ['*', '*']) (hframes : final.frames = []) :
    ∃ used, used ≤ text.length ∧ ∀ further,
      tokensFrom false (used + further) s (text ++ more) = tokensFrom false further final more := by
  induction rounds generalizing s text with
  | zero => exact absurd hrounds (Nat.not_lt_zero _)
  | succ rounds ih =>
    cases text with
    | nil =>
      rw [tokensFrom_nil] at hread
      cases hread
      exact ⟨0, Nat.le_refl 0, fun further => by rw [Nat.zero_add]; rfl⟩
    | cons c text =>
      obtain ⟨s', rest, hstep, hread⟩ := exists_step_of_tokensFrom hread
      have hlt := hstep.length_lt
      have hrest : '/' ∉ rest := fun hmem => hslash (hstep.suffix.subset hmem)
      obtain ⟨used, hused, happend⟩ :=
        ih hread (by omega) hrest (Or.inl ⟨hstep.hasTokens, hstep.before_ne hslash⟩)
      -- stars at the end of the text stand behind other tokens, and not behind a slash
      have hstars : c :: text = ['*', '*'] →
          s.HasTokens ∧ s.before ≠ some '/' ∧ s.frames = [] := by
        intro htext
        obtain ⟨htokens, hbefore⟩ := hs.resolve_right fun hne => hne htext
        rw [htext] at hstep
        exact ⟨htokens, hbefore, frames_eq_nil_of_stars hstep hread hframes⟩
      refine ⟨used + 1, by omega, fun further => ?_⟩
      rw [Nat.add_right_comm, tokensFrom_of_step (hstep.append_isBehind hmore hstars), happend]

lemma exists_of_readTokens (h : readTokens false text = .ok tokens) :
    ∃ before, tokensFrom false (text.length + 1) ⟨none, [], [], false⟩ text =
      .ok ⟨before, tokens.reverse, [], false⟩ := by
  have hsome : (readTokens false text).toOption = some tokens := by rw [h]; rfl
  rw [toOption_readTokens] at hsome
  obtain ⟨⟨before, inner, frames, plainBrackets⟩, hread, hsome⟩ := Option.bind_eq_some_iff.mp hsome
  have hread := eq_ok_of_toOption hread
  obtain rfl : plainBrackets = false :=
    tokensFrom_invariant (P := fun s => s.plainBrackets = false)
      (fun _ _ _ _ hstep h => hstep.plainBrackets_eq.trans h) hread rfl
  unfold State.tokens? at hsome
  split at hsome
  · next hframes =>
    obtain rfl : frames = [] := List.isEmpty_iff.mp hframes
    obtain rfl : inner.reverse = tokens := Option.some.inj hsome
    exact ⟨before, by rw [List.reverse_reverse]; exact hread⟩
  · exact nomatch hsome

/-- **Reading two globs in a row.**  A glob without slashes and one that begins with a slash are
read as the tokens of both, unless the former is `**`. -/
theorem toOption_readTokens_append (hslash : '/' ∉ step) (hstars : step ≠ ['*', '*'])
    (hstep : readTokens false step = .ok tokens) (hmore : IsBehind more) :
    (readTokens false (step ++ more)).toOption =
      (readTokens false more).toOption.map (tokens ++ ·) := by
  obtain ⟨before, hread⟩ := exists_of_readTokens hstep
  obtain ⟨used, hused, happend⟩ := exists_tokensFrom_append hread (Nat.lt_succ_self step.length)
    hslash hmore (Or.inr hstars) rfl
  obtain ⟨further, hrounds, hlen⟩ : ∃ further,
      (step ++ more).length + 1 = used + further ∧ more.length < further := by
    refine ⟨(step ++ more).length + 1 - used, ?_, ?_⟩ <;> rw [List.length_append] <;> omega
  rw [toOption_readTokens, hrounds, happend,
    toOption_tokensFrom_front before _ (not_beginsWithComponents_of_isBehind hmore) hlen,
    List.reverse_reverse]

/-! ### Steps behind slashes -/

lemma not_beginsWithComponents_append (hslash : '/' ∉ step) (hstars : step ≠ ['*', '*'])
    (hmore : IsBehind more) : ¬ BeginsWithComponents (step ++ more) := by
  rintro ⟨rest, heq, hrest⟩
  rcases step with _ | ⟨c, _ | ⟨d, step⟩⟩
  · exact not_beginsWithComponents_of_isBehind hmore ⟨rest, heq, hrest⟩
  · obtain rfl : more = '*' :: rest := (List.cons.inj heq).2
    rcases hmore with h | ⟨more, h⟩
    · exact nomatch h
    · exact absurd (List.cons.inj h).1 (by decide)
  · simp only [List.cons_append, List.cons.injEq] at heq
    obtain ⟨rfl, rfl, rfl⟩ := heq
    cases step with
    | nil => exact hstars rfl
    | cons e step =>
      rcases hrest with h | ⟨rest, h⟩
      · exact nomatch h
      · exact hslash (by simp [(List.cons.inj h).1])

lemma toOption_tokensFrom_step (before : Option Char) (front : List Token) (hslash : '/' ∉ step)
    (hstars : step ≠ ['*', '*']) (hstep : readTokens false step = .ok tokens)
    (hmore : IsBehind more) {rounds : Nat} (hrounds : (step ++ more).length < rounds) :
    (tokensFrom false rounds ⟨before, front, [], false⟩ (step ++ more)).toOption.bind
        State.tokens? =
      (readTokens false more).toOption.map fun behind => front.reverse ++ (tokens ++ behind) := by
  rw [toOption_tokensFrom_front before front
      (not_beginsWithComponents_append hslash hstars hmore) hrounds,
    toOption_readTokens_append hslash hstars hstep hmore, Option.map_map]
  rfl

/-- **A step behind a slash.** -/
lemma toOption_readTokens_slash_step (hslash : '/' ∉ step) (hstars : step ≠ ['*', '*'])
    (hstep : readTokens false step = .ok tokens) (hmore : IsBehind more) :
    (readTokens false ('/' :: (step ++ more))).toOption =
      (readTokens false more).toOption.map fun behind => .literal '/' :: (tokens ++ behind) := by
  rw [toOption_readTokens_slash]
  exact toOption_tokensFrom_step _ _ hslash hstars hstep hmore (Nat.lt_succ_self _)

/-- **A step behind a `**`**, which takes in the slash before it. -/
lemma toOption_readTokens_stars_step (hslash : '/' ∉ step) (hstars : step ≠ ['*', '*'])
    (hstep : readTokens false step = .ok tokens) (hmore : IsBehind more) :
    (readTokens false ('/' :: '*' :: '*' :: '/' :: (step ++ more))).toOption =
      (readTokens false more).toOption.map fun behind =>
        .componentsBetween :: (tokens ++ behind) := by
  have hread : Step State.slash ('*' :: '*' :: '/' :: (step ++ more))
      ⟨some '/', [.componentsBetween], [], false⟩ (step ++ more) := .stars _
  rw [toOption_readTokens_slash, List.length_cons, tokensFrom_of_step hread]
  refine toOption_tokensFrom_step _ _ hslash hstars hstep hmore ?_
  simp only [List.length_cons]
  omega

lemma framesOnTop_nil (frames : List Frame) : framesOnTop [] frames = frames := by
  induction frames with
  | nil => rfl
  | cons frame frames ih =>
    cases frames with
    | nil => simp [framesOnTop]
    | cons next frames => rw [framesOnTop, ih]

lemma State.onTop_nil (s : State) : s.onTop [] = s := by
  obtain ⟨before, tokens, frames, plainBrackets⟩ := s
  cases frames <;> simp [State.onTop, framesOnTop_nil]

/-- Any number of rounds is enough that is greater than the length of the text. -/
lemma toOption_tokensFrom_rounds {rounds rounds' : Nat} (hrounds : text.length < rounds)
    (hrounds' : text.length < rounds') (hs : s.HasTokens) :
    (tokensFrom false rounds s text).toOption = (tokensFrom false rounds' s text).toOption := by
  have hread : (tokensFrom false rounds (s.onTop []) text).toOption =
      (tokensFrom false rounds' s text).toOption.map fun s' => s'.onTop [] :=
    tokensFrom_onTop hrounds hrounds' (Or.inl hs)
  simpa only [State.onTop_nil, Option.map_id_fun', id] using hread

/-- **A `**` behind a `**`** adds nothing. -/
lemma toOption_readTokens_stars_stars (hmore : IsBehind more) :
    (readTokens false ('/' :: '*' :: '*' :: '/' :: '*' :: '*' :: more)).toOption =
      (readTokens false ('/' :: '*' :: '*' :: more)).toOption := by
  have hfirst : Step State.slash ('*' :: '*' :: '/' :: '*' :: '*' :: more)
      ⟨some '/', [.componentsBetween], [], false⟩ ('*' :: '*' :: more) := .stars _
  have hsecond := Step.stars (s := ⟨some '/', [.componentsBetween], [], false⟩) more
  have honly := Step.stars (s := State.slash) more
  have hsame : State.stars ⟨some '/', [.componentsBetween], [], false⟩ more =
      State.slash.stars more := by
    rcases hmore with rfl | ⟨rest, rfl⟩ <;> rfl
  have hlen := (stars_suffix State.slash more).length_le
  rw [hsame] at hsecond
  rw [toOption_readTokens_slash, toOption_readTokens_slash, List.length_cons, List.length_cons,
    tokensFrom_of_step hfirst, tokensFrom_of_step hsecond, tokensFrom_of_step honly]
  refine congrArg (·.bind State.tokens?) (toOption_tokensFrom_rounds ?_ ?_ honly.hasTokens)
  · simp only [List.length_cons]
    omega
  · simp only [List.length_cons]
    omega

end

/-! ### Component by component -/

/-- The glob that a step is by itself matches the name. -/
def StepMatches (step name : String) : Prop :=
  ∃ glob, read false step = .ok glob ∧ glob.matchesPath name = true

/-- The step is `**`, or a glob by itself that matches no slash. -/
def IsComponent (step : String) : Prop :=
  step = "**" ∨
    ∃ glob, read false step = .ok glob ∧ ∀ path, glob.matchesPath path = true → '/' ∉ path.toList

/-- **Component by component.**  Each step takes one name, in their order, and `**` takes any number
of names. -/
inductive Aligned (takes : String → String → Prop) : List String → List String → Prop where
  | nil : Aligned takes [] []
  | step {step name : String} {steps names : List String} (h : takes step name)
    (hrest : Aligned takes steps names) : Aligned takes (step :: steps) (name :: names)
  | stop {steps names : List String} (hrest : Aligned takes steps names) :
    Aligned takes ("**" :: steps) names
  | more {name : String} {steps names : List String} (h : takes "**" name)
    (hrest : Aligned takes ("**" :: steps) names) : Aligned takes ("**" :: steps) (name :: names)

section

variable {takes takes' : String → String → Prop} {steps names : List String}

lemma Aligned.imp (h : Aligned takes steps names)
    (himp : ∀ step ∈ steps, ∀ name ∈ names, takes step name → takes' step name) :
    Aligned takes' steps names := by
  induction h with
  | nil => exact .nil
  | step h _ ih =>
    refine .step (himp _ (by simp) _ (by simp) h) (ih fun step hstep name hname => ?_)
    exact himp step (by simp [hstep]) name (by simp [hname])
  | stop _ ih =>
    exact .stop (ih fun step hstep name hname => himp step (by simp [hstep]) name hname)
  | more h _ ih =>
    refine .more (himp _ (by simp) _ (by simp) h) (ih fun step hstep name hname => ?_)
    exact himp step hstep name (by simp [hname])

lemma Aligned.eq_nil (h : Aligned takes [] names) : names = [] := by
  cases h
  rfl

lemma Aligned.exists_of_ne_stars {step : String} (h : Aligned takes (step :: steps) names)
    (hstars : step ≠ "**") :
    ∃ name rest, names = name :: rest ∧ takes step name ∧ Aligned takes steps rest := by
  cases h with
  | step h hrest => exact ⟨_, _, rfl, h, hrest⟩
  | stop | more => exact absurd rfl hstars

lemma Aligned.stars_append (hstars : ∀ name, takes "**" name) (front : List String)
    (h : Aligned takes steps names) : Aligned takes ("**" :: steps) (front ++ names) := by
  induction front with
  | nil => exact .stop h
  | cons name front ih => exact .more (hstars name) ih

end

lemma stepMatches_stars (name : String) : StepMatches "**" name :=
  ⟨_, rfl, (matchesPath_ofTokens_iff [.componentsFirst] name).mpr (Or.inl rfl)⟩

variable {steps names front : List String} {tokens : List Token} {lower : List UInt8}

lemma IsComponent.exists_tokens {step : String} (h : IsComponent step) (hstars : step ≠ "**") :
    ∃ tokens, readTokens false step.toList = .ok tokens ∧
      ∀ path, TokensDescribe tokens (bytes path) →
        StepMatches step path ∧ '/' ∉ path.toList := by
  obtain ⟨glob, hread, hmatches⟩ := h.resolve_left hstars
  have hread' := hread
  unfold read at hread'
  split at hread'
  · next tokens htokens =>
    cases hread'
    refine ⟨tokens, htokens, fun path hpath => ?_⟩
    have hmatch := (matchesPath_ofTokens_iff tokens path).mpr (Or.inr hpath)
    exact ⟨⟨_, hread, hmatch⟩, hmatches path hmatch⟩
  · exact nomatch hread'

lemma exists_eq_singleton_of_describes {step : String}
    (hmatches : ∀ path, TokensDescribe tokens (bytes path) →
      StepMatches step path ∧ '/' ∉ path.toList)
    (hfront : spelledBytes front = 47 :: lower) (hlower : TokensDescribe tokens lower) :
    ∃ name, front = [name] ∧ StepMatches step name := by
  cases front with
  | nil => exact nomatch hfront
  | cons name others =>
    have hbytes : bytes (String.ofList (name.toList ++ spelled others)) = lower := by
      rw [bytes_eq_flatMap, String.toList_ofList, List.flatMap_append, flatMap_spelled,
        ← bytes_eq_flatMap]
      exact (List.cons.inj hfront).2
    rw [← hbytes] at hlower
    obtain ⟨hmatch, hslash⟩ := hmatches _ hlower
    cases others with
    | nil => exact ⟨name, rfl, by simpa [spelled] using hmatch⟩
    | cons second others => exact absurd (by simp [spelled]) hslash

lemma isBehind_spelled (steps : List String) : IsBehind (spelled steps) := by
  cases steps with
  | nil => exact Or.inl rfl
  | cons step steps => exact Or.inr ⟨_, rfl⟩

lemma toList_ne_stars {step : String} (h : step ≠ "**") : step.toList ≠ ['*', '*'] :=
  fun heq => h (String.toList_injective heq)

/-- What the tokens of a glob of steps describe is empty or begins with a slash. -/
lemma eq_nil_or_slash_of_describes (hread : readTokens false (spelled steps) = .ok tokens)
    (h : TokensDescribe tokens lower) : lower = [] ∨ ∃ below, lower = 47 :: below := by
  cases steps with
  | nil =>
    cases hread
    exact Or.inl h
  | cons step steps =>
    obtain ⟨t, more, rfl, ht⟩ := exists_isSlash_of_readTokens hread
    obtain ⟨u, v, rfl, hu, -⟩ := (tokensDescribe_cons t more lower).mp h
    obtain ⟨below, rfl⟩ := ht.describes hu
    exact Or.inr ⟨below ++ v, rfl⟩

lemma exists_of_spelledBytes_eq_append (hnames : ∀ name ∈ names, IsName name)
    {upper : List UInt8} (h : spelledBytes names = upper ++ lower)
    (hlower : lower = [] ∨ ∃ below, lower = 47 :: below) :
    ∃ front back, names = front ++ back ∧ spelledBytes front = upper ∧
      spelledBytes back = lower := by
  rcases hlower with rfl | ⟨below, rfl⟩
  · exact ⟨names, [], (List.append_nil names).symm, by rw [h, List.append_nil], rfl⟩
  · exact exists_of_spelledBytes_eq hnames h

/-- A glob of these steps is matched component by component. -/
def MatchesByComponents (steps : List String) : Prop :=
  ∀ names tokens, (∀ name ∈ names, IsName name) → readTokens false (spelled steps) = .ok tokens →
    TokensDescribe tokens (spelledBytes names) → Aligned StepMatches steps names

lemma MatchesByComponents.step {step : String} (h : MatchesByComponents steps) (hname : IsName step)
    (hcomponent : IsComponent step) (hstars : step ≠ "**") :
    MatchesByComponents (step :: steps) := by
  intro names tokens hnames hread hdescribe
  obtain ⟨inner, hinner, hmatches⟩ := hcomponent.exists_tokens hstars
  have hsome : (readTokens false (spelled (step :: steps))).toOption = some tokens := by
    rw [hread]
    rfl
  have hstep := toOption_readTokens_slash_step hname.2 (toList_ne_stars hstars) hinner
    (isBehind_spelled steps)
  obtain ⟨behind, hbehind, rfl⟩ := Option.map_eq_some_iff.mp (hstep.symm.trans hsome)
  have hbehind := eq_ok_of_toOption hbehind
  obtain ⟨u, v, hsplit, hslash, hv⟩ := (tokensDescribe_cons _ _ _).mp hdescribe
  obtain ⟨v, w, rfl, hinner, hw⟩ := (tokensDescribe_append _ _ _).mp hv
  obtain rfl : u = [47] := (describes_literal '/' u).mp hslash
  have hcut : spelledBytes names = (47 :: v) ++ w := hsplit
  obtain ⟨front, back, rfl, hfront, rfl⟩ := exists_of_spelledBytes_eq_append hnames hcut
    (eq_nil_or_slash_of_describes hbehind hw)
  obtain ⟨name, rfl, hname⟩ := exists_eq_singleton_of_describes hmatches hfront hinner
  exact .step hname (h back behind (fun name hmem => hnames name (by simp [hmem])) hbehind hw)

/-- A `**` takes the names up to the one that the next step takes. -/
lemma MatchesByComponents.stars_step {step : String} (h : MatchesByComponents (step :: steps))
    (hname : IsName step) (hcomponent : IsComponent step) (hstars : step ≠ "**") :
    MatchesByComponents ("**" :: step :: steps) := by
  intro names tokens hnames hread hdescribe
  have hsome : (readTokens false (spelled ("**" :: step :: steps))).toOption = some tokens := by
    rw [hread]
    rfl
  obtain ⟨inner, hinner, -⟩ := hcomponent.exists_tokens hstars
  have hne := toList_ne_stars hstars
  have hstars := toOption_readTokens_stars_step hname.2 hne hinner (isBehind_spelled steps)
  have hslash := toOption_readTokens_slash_step hname.2 hne hinner (isBehind_spelled steps)
  obtain ⟨behind, hbehind, rfl⟩ := Option.map_eq_some_iff.mp (hstars.symm.trans hsome)
  rw [hbehind] at hslash
  obtain ⟨u, v, hsplit, hu, hv⟩ := (tokensDescribe_cons _ _ _).mp hdescribe
  -- The components between slashes end with a slash, at which the names are cut; that slash is then
  -- the one before the next step.
  obtain ⟨upper, rfl⟩ : ∃ upper, u = upper ++ [47] := by
    rcases (describes_componentsBetween_iff u).mp hu with rfl | ⟨between, rfl⟩
    · exact ⟨[], rfl⟩
    · exact ⟨47 :: between, rfl⟩
  rw [List.append_assoc] at hsplit
  obtain ⟨front, back, rfl, -, hback⟩ := exists_of_spelledBytes_eq hnames hsplit
  have hdescribe : TokensDescribe (.literal '/' :: (inner ++ behind)) (spelledBytes back) := by
    rw [hback]
    exact (tokensDescribe_cons _ _ _).mpr ⟨[47], v, rfl, (describes_literal '/' _).mpr rfl, hv⟩
  have haligned := h back _ (fun name hmem => hnames name (by simp [hmem]))
    (eq_ok_of_toOption hslash) hdescribe
  exact haligned.stars_append stepMatches_stars front

/-- A `**` takes the names that the steps behind it leave. -/
lemma MatchesByComponents.stars (h : MatchesByComponents steps)
    (hsteps : ∀ step ∈ steps, IsName step ∧ IsComponent step) :
    MatchesByComponents ("**" :: steps) := by
  cases steps with
  | nil =>
    intro names tokens _ _ _
    have haligned : Aligned StepMatches ["**"] (names ++ []) :=
      .stars_append stepMatches_stars names .nil
    rwa [List.append_nil] at haligned
  | cons step steps =>
    by_cases hstars : step = "**"
    · subst hstars
      intro names tokens hnames hread hdescribe
      have hsame := toOption_readTokens_stars_stars (isBehind_spelled steps)
      have hrest : (readTokens false (spelled ("**" :: steps))).toOption = some tokens :=
        hsame.symm.trans (congrArg Except.toOption hread)
      exact .stop (h names tokens hnames (eq_ok_of_toOption hrest) hdescribe)
    · obtain ⟨hname, hcomponent⟩ := hsteps step (by simp)
      exact h.stars_step hname hcomponent hstars

/-- **A glob made of steps matches component by component.** -/
theorem matchesByComponents (hsteps : ∀ step ∈ steps, IsName step ∧ IsComponent step) :
    MatchesByComponents steps := by
  induction steps with
  | nil =>
    intro names tokens _ hread hdescribe
    cases hread
    cases names with
    | nil => exact .nil
    | cons name names => exact nomatch hdescribe
  | cons step steps ih =>
    obtain ⟨⟨hname, hcomponent⟩, hrest⟩ := List.forall_mem_cons.mp hsteps
    by_cases hstars : step = "**"
    · subst hstars
      exact (ih hrest).stars hrest
    · exact (ih hrest).step hname hcomponent hstars

/-! ### How a step begins -/

/-- The characters at which a glob may go on with another character than this one. -/
def openers : List Char := ['*', '?', '[', '\x7b', '\\']

/-- A glob that begins with any other character has it as its first token. -/
lemma exists_literal_of_readTokens {c : Char} {rest : List Char} (hc : c ∉ openers)
    (hslash : '/' ∉ c :: rest) (h : readTokens false (c :: rest) = .ok tokens) :
    ∃ more, tokens = .literal c :: more := by
  obtain ⟨before, hread⟩ := exists_of_readTokens h
  obtain ⟨s, behind, hstep, hread⟩ := exists_step_of_tokensFrom hread
  obtain ⟨rfl, rfl⟩ : s = ⟨some c, [.literal c], [], false⟩ ∧ behind = rest := by
    cases hstep with
    | any | many | stars | oneOf | openChoice | escape => exact absurd (by decide) hc
    | closeChoice _ hclose => exact nomatch hclose
    | comma | literal => exact ⟨rfl, rfl⟩
  by_cases hstars : BeginsWithComponents behind
  · -- nothing can follow the stars but the end, and behind `c` they are two stars
    obtain ⟨rest, rfl, rfl | ⟨rest, rfl⟩⟩ := hstars
    · have hsecond := Step.stars (s := ⟨some c, [.literal c], [], false⟩) []
      rw [stars_of_before_ne (fun _ => List.cons_ne_nil _ _)
        (fun heq => hslash (by simp [Option.some.inj heq])) rfl] at hsecond
      rw [List.length_cons, tokensFrom_of_step hsecond, tokensFrom_nil] at hread
      refine ⟨[.many, .many], List.reverse_injective ?_⟩
      exact (State.mk.inj (Except.ok.inj hread)).2.1.symm
    · exact absurd (by simp) hslash
  · have hfront := toOption_tokensFrom_front (some c) [.literal c] hstars
      (Nat.lt_succ_self behind.length)
    have hread : tokensFrom false (behind.length + 1) ⟨some c, [.literal c], [], false⟩ behind =
      .ok ⟨before, tokens.reverse, [], false⟩ := hread
    rw [hread] at hfront
    obtain ⟨more, -, hmore⟩ := Option.map_eq_some_iff.mp hfront.symm
    refine ⟨more, ?_⟩
    simpa [eq_comm] using hmore

/-- **What takes a dotted name.**  It begins with a dot, or with a character at which a glob may go
on with a dot. -/
lemma StepMatches.begins {step name : String} (h : StepMatches step name) (hname : IsName step)
    (hdot : name.toList.head? = some '.') :
    step.toList.head? = some '.' ∨ ∃ c ∈ openers, step.toList.head? = some c := by
  obtain ⟨c, rest, hstep⟩ := List.exists_cons_of_ne_nil
    fun hnil : step.toList = [] => hname.1 (String.toList_eq_nil_iff.mp hnil)
  rw [hstep, List.head?_cons]
  by_cases hc : c ∈ openers
  · exact Or.inr ⟨c, hc, rfl⟩
  · left
    obtain ⟨glob, hread, hmatches⟩ := h
    have hslash : '/' ∉ c :: rest := hstep ▸ hname.2
    unfold read at hread
    rw [hstep] at hread
    split at hread
    · next tokens htokens =>
      cases hread
      obtain ⟨more, rfl⟩ := exists_literal_of_readTokens hc hslash htokens
      obtain ⟨lower, hlower⟩ := List.head?_eq_some_iff.mp hdot
      have hdescribe := ((matchesPath_ofTokens_iff _ name).mp hmatches).resolve_left nofun
      obtain ⟨u, v, hsplit, hu, -⟩ := (tokensDescribe_cons _ _ _).mp hdescribe
      rw [bytes_eq_flatMap, hlower, (describes_literal c u).mp hu] at hsplit
      obtain ⟨b, front, hb⟩ := List.exists_cons_of_ne_nil (@String.utf8EncodeChar_ne_nil c)
      rw [hb] at hsplit
      have hfirst : b = 46 := (List.cons.inj hsplit).1.symm
      -- the first byte of the name is a dot, so the character is one
      have hmem : 46 ∈ utf8EncodeChar c := by
        rw [hb, hfirst]
        exact List.mem_cons_self
      rw [(ascii_mem_utf8EncodeChar (a := '.') (by decide) c).mp hmem]
    · exact nomatch hread

/-! ### Steps of wildcards and ordinary characters -/

/-- The token matches no slash. -/
def Token.NoSlash (t : Token) : Prop := ∀ text, t.expr.Describes text → 47 ∉ text

lemma ne_slash_of_noSlash_contains {b : UInt8} (h : ByteClass.noSlash.contains b = true) :
    b ≠ 47 := by
  rintro rfl
  exact nomatch h

lemma noSlash_any : Token.any.NoSlash := by
  rintro _ ⟨b, rfl, hb⟩ hmem
  exact ne_slash_of_noSlash_contains hb (List.mem_singleton.mp hmem).symm

lemma noSlash_many : Token.many.NoSlash :=
  fun _ htext hmem => ne_slash_of_noSlash_contains (htext 47 hmem) rfl

lemma noSlash_literal {c : Char} (hc : c ≠ '/') : (Token.literal c).NoSlash := by
  intro text htext
  rw [(describes_literal c text).mp htext, slash_mem_utf8EncodeChar]
  exact hc

lemma not_noSlash_componentsFirst : ¬ Token.componentsFirst.NoSlash := by
  intro h
  refine h [47] (Or.inr ⟨[], [47], rfl, describes_anything [], ?_⟩) (List.mem_singleton_self 47)
  exact (describes_slash [47]).mpr rfl

lemma slash_not_mem_of_noSlash {text : List UInt8} (htokens : ∀ t ∈ tokens, t.NoSlash)
    (h : TokensDescribe tokens text) : 47 ∉ text := by
  induction tokens generalizing text with
  | nil =>
    obtain rfl : text = [] := h
    exact List.not_mem_nil
  | cons t tokens ih =>
    obtain ⟨ht, htokens⟩ := List.forall_mem_cons.mp htokens
    obtain ⟨u, v, rfl, hu, hv⟩ := (tokensDescribe_cons t tokens text).mp h
    rw [List.mem_append, not_or]
    exact ⟨ht u hu, ih htokens hv⟩

/-- The character is neither a bracket that opens a class nor a brace nor a backslash. -/
def IsSimple (c : Char) : Prop := c ≠ '[' ∧ c ≠ '\x7b' ∧ c ≠ '\x7d' ∧ c ≠ '\\'

section

variable {s : State} {text : List Char}

lemma exists_step_of_simple {c : Char} (hc : IsSimple c) (hslash : '/' ∉ c :: text)
    (hframes : s.frames = []) (htokens : ∀ t ∈ s.tokens, t.NoSlash)
    (hs : s.HasTokens ∧ s.before ≠ some '/' ∨ c :: text ≠ ['*', '*']) :
    ∃ s' rest, Step s (c :: text) s' rest ∧ s'.frames = [] ∧ ∀ t ∈ s'.tokens, t.NoSlash := by
  by_cases hany : c = '?'
  · subst hany
    exact ⟨_, _, .any text, hframes, List.forall_mem_cons.mpr ⟨noSlash_any, htokens⟩⟩
  by_cases hstar : c = '*'
  · subst hstar
    by_cases hhead : text.head? = some '*'
    -- two stars in the middle of a step, or at its end behind something else: they match no slash
    · obtain ⟨rest, rfl⟩ := List.head?_eq_some_iff.mp hhead
      have hplain : s.stars rest = (s.twoStars, rest) := by
        by_cases hrest : IsBehind rest
        · obtain rfl : rest = [] := by
            rcases hrest with hrest | ⟨rest, rfl⟩
            · exact hrest
            · exact absurd (by simp) hslash
          obtain ⟨hs, hbefore⟩ := hs.resolve_right (absurd rfl)
          exact stars_of_before_ne hs hbefore hframes []
        · exact State.stars_of_not_isBehind hframes hrest
      have hstep := Step.stars (s := s) rest
      rw [hplain] at hstep
      exact ⟨_, _, hstep, hframes, List.forall_mem_cons.mpr ⟨noSlash_many,
        List.forall_mem_cons.mpr ⟨noSlash_many, htokens⟩⟩⟩
    · exact ⟨_, _, .many text hhead, hframes, List.forall_mem_cons.mpr ⟨noSlash_many, htokens⟩⟩
  -- every other character is read as itself
  have hliteral : ∀ t ∈ (s.push c (.literal c)).tokens, t.NoSlash := by
    refine List.forall_mem_cons.mpr ⟨noSlash_literal ?_, htokens⟩
    rintro rfl
    exact hslash List.mem_cons_self
  obtain ⟨hbracket, hopening, hclosing, hescape⟩ := hc
  by_cases hcomma : c = ','
  · subst hcomma
    have hpush := comma_of_frames_eq_nil hframes
    exact ⟨_, _, .comma text, by rw [hpush]; exact hframes, by rw [hpush]; exact hliteral⟩
  · have hspecial : isSpecial c = false := by simp [isSpecial, *]
    exact ⟨_, _, .literal c text hspecial (fun h => hbracket h.1), hframes, hliteral⟩

/-- Wildcards and ordinary characters are read as tokens that match no slash. -/
lemma exists_tokensFrom_of_simple {rounds : Nat} (hrounds : text.length < rounds)
    (htext : ∀ c ∈ text, IsSimple c) (hslash : '/' ∉ text) (hframes : s.frames = [])
    (htokens : ∀ t ∈ s.tokens, t.NoSlash)
    (hs : s.HasTokens ∧ s.before ≠ some '/' ∨ text ≠ ['*', '*']) :
    ∃ final, tokensFrom false rounds s text = .ok final ∧ final.frames = [] ∧
      ∀ t ∈ final.tokens, t.NoSlash := by
  induction rounds generalizing s text with
  | zero => exact absurd hrounds (Nat.not_lt_zero _)
  | succ rounds ih =>
    cases text with
    | nil => exact ⟨s, tokensFrom_nil _ _ s, hframes, htokens⟩
    | cons c text =>
      obtain ⟨s', rest, hstep, hframes', htokens'⟩ :=
        exists_step_of_simple (htext c (by simp)) hslash hframes htokens hs
      have hlt := hstep.length_lt
      have hsubset := hstep.suffix.subset
      rw [tokensFrom_of_step hstep]
      exact ih (by omega) (fun d hd => htext d (hsubset hd)) (fun hmem => hslash (hsubset hmem))
        hframes' htokens' (Or.inl ⟨hstep.hasTokens, hstep.before_ne hslash⟩)

end

/-- **Steps of wildcards are components**, and so are steps of ordinary characters. -/
theorem isComponent_of_simple {step : String} (hname : IsName step)
    (hstep : ∀ c ∈ step.toList, IsSimple c) : IsComponent step := by
  by_cases hstars : step = "**"
  · exact Or.inl hstars
  obtain ⟨final, hread, hframes, htokens⟩ := exists_tokensFrom_of_simple
    (s := ⟨none, [], [], false⟩) (Nat.lt_succ_self _) hstep hname.2 rfl nofun
    (Or.inr (toList_ne_stars hstars))
  refine Or.inr ⟨_, (read_eq_ok_iff step _).mpr ⟨final, hread, hframes, rfl⟩, ?_⟩
  have htokens : ∀ t ∈ final.tokens.reverse, t.NoSlash :=
    fun t ht => htokens t (List.mem_reverse.mp ht)
  intro path hmatches hslash
  rcases (matchesPath_ofTokens_iff _ path).mp hmatches with hfirst | hdescribe
  · exact not_noSlash_componentsFirst (htokens _ (by simp [hfirst]))
  · refine slash_not_mem_of_noSlash htokens hdescribe ?_
    rw [bytes_eq_flatMap, List.mem_flatMap]
    exact ⟨'/', hslash, (slash_mem_utf8EncodeChar '/').mpr rfl⟩

end SheetLint.Glob
