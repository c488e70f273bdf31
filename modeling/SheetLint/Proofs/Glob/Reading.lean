import Mathlib.Tactic.Lemma
import SheetLint.Glob

/-!
# Reading a glob step by step

The reader of globs makes one step at each character that begins something.  `Step` says what a step
can do when no class may be left open, with one rule for each kind of character; a reading that
comes to an end begins with a step (`exists_step_of_tokensFrom`), and goes on behind it
(`tokensFrom_of_step`).  Everything that is said of readings comes from steps by induction on the
rounds.

A property that no step loses is one of the whole reading (`tokensFrom_invariant`).  And a step
takes no notice of what comes behind the text that it has read (`Step.append`).  The exception are
two stars: they look at the next character, and mean components only before a slash or the end.  So
texts that end in two stars are left to a treatment of their own.

Choices are kept as a stack of frames, with the tokens before the choice and those of its branches.
What braces and commas do to it is said by `exists_of_closeChoice` and `comma_cases`, and what two
stars do to the tokens by `stars_cases`: they become two stars, components at the front, or
components in place of the slash before them.
-/

namespace SheetLint.Glob

/-- The characters that are read in a way of their own, whatever the state. -/
def isSpecial (c : Char) : Bool :=
  c == '?' || c == '*' || c == '\x7b' || c == '\x7d' || c == ',' || c == '\\'

/-- **One step of the reader.**  From `s`, at a text, to a state and the text behind what has been
read. -/
inductive Step (s : State) : List Char → State → List Char → Prop where
  | any (rest : List Char) : Step s ('?' :: rest) (s.push '?' .any) rest
  | many (rest : List Char) (h : rest.head? ≠ some '*') :
    Step s ('*' :: rest) (s.push '*' .many) rest
  | stars (rest : List Char) : Step s ('*' :: '*' :: rest) (s.stars rest).1 (s.stars rest).2
  | oneOf (rest : List Char) {cls : CharClass} {behind : List Char} (h : ¬ s.plainBrackets)
    (hclass : readClass rest = .ok (some (cls, behind))) :
    Step s ('[' :: rest) (s.push ']' (.oneOf cls)) behind
  | openChoice (rest : List Char) : Step s ('\x7b' :: rest) s.openChoice rest
  | closeChoice (rest : List Char) {s' : State} (h : s.closeChoice = .ok s') :
    Step s ('\x7d' :: rest) s' rest
  | comma (rest : List Char) : Step s (',' :: rest) s.comma rest
  | escape (d : Char) (rest : List Char) : Step s ('\\' :: d :: rest) (s.push d (.literal d)) rest
  | literal (c : Char) (rest : List Char) (h : isSpecial c = false)
    (hbracket : ¬ (c = '[' ∧ ¬ s.plainBrackets)) :
    Step s (c :: rest) (s.push c (.literal c)) rest

lemma tokensFrom_nil (mayLeaveOpen : Bool) (rounds : Nat) (s : State) :
    tokensFrom mayLeaveOpen rounds s [] = .ok s := by
  cases rounds <;> rfl

lemma tokensFrom_of_step {s s' : State} {text rest : List Char} (h : Step s text s' rest)
    (rounds : Nat) :
    tokensFrom false (rounds + 1) s text = tokensFrom false rounds s' rest := by
  cases h with
  | any => rfl
  | many _ hhead =>
    cases rest with
    | nil => rfl
    | cons d rest =>
      have hd : d ≠ '*' := by simpa using hhead
      conv => lhs; unfold tokensFrom
      -- a star alone: the text behind it begins with something else
      rw [if_neg (by decide), if_pos rfl]
      split
      · next heq => exact absurd (List.cons.inj heq).1 hd
      · rfl
  | stars rest => rfl
  | oneOf rest hplain hclass =>
    conv => lhs; unfold tokensFrom
    rw [if_neg (by decide), if_neg (by decide), if_pos ⟨rfl, hplain⟩, hclass]
    rfl
  | openChoice =>
    conv => lhs; unfold tokensFrom
    rw [if_neg (by decide), if_neg (by decide), if_neg (by simp), if_pos rfl]
  | closeChoice _ hclose =>
    conv => lhs; unfold tokensFrom
    rw [if_neg (by decide), if_neg (by decide), if_neg (by simp), if_neg (by decide), if_pos rfl,
      hclose]
    rfl
  | comma =>
    conv => lhs; unfold tokensFrom
    rw [if_neg (by decide), if_neg (by decide), if_neg (by simp), if_neg (by decide),
      if_neg (by decide), if_pos rfl]
  | escape d =>
    conv => lhs; unfold tokensFrom
    rw [if_neg (by decide), if_neg (by decide), if_neg (by simp), if_neg (by decide),
      if_neg (by decide), if_neg (by decide), if_pos rfl]
  | literal c _ hc hbracket =>
    have hne : c ≠ '?' ∧ c ≠ '*' ∧ c ≠ '\x7b' ∧ c ≠ '\x7d' ∧ c ≠ ',' ∧ c ≠ '\\' := by
      simpa [isSpecial, and_assoc] using hc
    obtain ⟨hany, hstar, hopening, hclosing, hcomma, hescape⟩ := hne
    conv => lhs; unfold tokensFrom
    rw [if_neg hany, if_neg hstar, if_neg hbracket, if_neg hopening, if_neg hclosing,
      if_neg hcomma, if_neg hescape]

lemma exists_step_of_tokensFrom {rounds : Nat} {s final : State} {c : Char} {rest : List Char}
    (h : tokensFrom false (rounds + 1) s (c :: rest) = .ok final) :
    ∃ s' rest', Step s (c :: rest) s' rest' ∧ tokensFrom false rounds s' rest' = .ok final := by
  have hread := h
  unfold tokensFrom at h
  by_cases hany : c = '?'
  · subst hany
    exact ⟨_, _, .any rest, h⟩
  by_cases hstar : c = '*'
  · subst hstar
    rw [if_neg (by decide), if_pos rfl] at h
    split at h
    · exact ⟨_, _, .stars _, h⟩
    · next hne =>
      refine ⟨_, _, .many rest ?_, h⟩
      intro hhead
      obtain ⟨behind, hrest⟩ := List.head?_eq_some_iff.mp hhead
      exact hne behind hrest
  by_cases hbracket : c = '[' ∧ ¬ s.plainBrackets
  · obtain ⟨rfl, hplain⟩ := hbracket
    rw [if_neg hany, if_neg hstar, if_pos ⟨rfl, hplain⟩] at h
    -- a class is closed here, since none may be left open
    rcases hclass : readClass rest with defect | _ | ⟨cls, behind⟩
    · rw [hclass] at h
      exact nomatch h
    · rw [hclass] at h
      exact nomatch h
    · rw [hclass] at h
      exact ⟨_, _, .oneOf rest hplain hclass, h⟩
  rw [if_neg hany, if_neg hstar, if_neg hbracket] at h
  by_cases hopening : c = '\x7b'
  · subst hopening
    exact ⟨_, _, .openChoice rest, h⟩
  by_cases hclosing : c = '\x7d'
  · subst hclosing
    rw [if_neg hopening, if_pos rfl] at h
    cases hclose : s.closeChoice with
    | error defect =>
      rw [hclose] at h
      exact nomatch h
    | ok s' =>
      rw [hclose] at h
      exact ⟨_, _, .closeChoice rest hclose, h⟩
  by_cases hcomma : c = ','
  · subst hcomma
    exact ⟨_, _, .comma rest, h⟩
  by_cases hescape : c = '\\'
  · subst hescape
    rw [if_neg hopening, if_neg hclosing, if_neg hcomma, if_pos rfl] at h
    cases rest with
    | nil => exact nomatch h
    | cons d rest => exact ⟨_, _, .escape d rest, h⟩
  -- none of the characters with a meaning, so it stands for itself
  · have hc : isSpecial c = false := by simp [isSpecial, *]
    have hstep := Step.literal c rest hc hbracket
    exact ⟨_, _, hstep, by rwa [tokensFrom_of_step hstep] at hread⟩

/-- What no step loses, reading keeps. -/
lemma tokensFrom_invariant {P : State → Prop}
    (hstep : ∀ s text s' rest, Step s text s' rest → P s → P s') {rounds : Nat} {s final : State}
    {text : List Char} (h : tokensFrom false rounds s text = .ok final) (hs : P s) : P final := by
  induction rounds generalizing s text with
  | zero =>
    obtain rfl : s = final := by
      unfold tokensFrom at h
      exact Except.ok.inj h
    exact hs
  | succ rounds ih =>
    cases text with
    | nil =>
      rw [tokensFrom_nil] at h
      exact Except.ok.inj h ▸ hs
    | cons c rest =>
      obtain ⟨s', rest', hfirst, hread⟩ := exists_step_of_tokensFrom h
      exact ih hread (hstep _ _ _ _ hfirst hs)

lemma read_eq_ok_iff (glob : String) (g : Glob) :
    read false glob = .ok g ↔
      ∃ s, tokensFrom false (glob.toList.length + 1) ⟨none, [], [], false⟩ glob.toList = .ok s ∧
        s.frames = [] ∧ g = ofTokens s.tokens.reverse := by
  unfold read readTokens
  cases tokensFrom false (glob.toList.length + 1) ⟨none, [], [], false⟩ glob.toList with
  | error defect => simp [bind, Except.bind]
  | ok s =>
    by_cases hframes : s.frames = []
    · simp [bind, Except.bind, hframes, eq_comm]
    · simp [bind, Except.bind, hframes]

/-! ### Choices -/

/-- What a closing brace does: the choice becomes a token behind what stands before it. -/
lemma exists_of_closeChoice {s s' : State} (h : s.closeChoice = .ok s') :
    ∃ frame frames, s.frames = frame :: frames ∧
      s' = { s with
        before := some '\x7d'
        tokens := .choice (s.tokens.reverse :: frame.branches).reverse :: frame.outer
        frames := frames } := by
  unfold State.closeChoice at h
  split at h
  · exact nomatch h
  · next outer branches frames hframes => exact ⟨_, _, hframes, (Except.ok.inj h).symm⟩

/-- What a comma does: it is an ordinary character, or ends a branch. -/
lemma comma_cases (s : State) :
    s.frames = [] ∧ s.comma = s.push ',' (.literal ',') ∨
      ∃ frame frames, s.frames = frame :: frames ∧
        s.comma = { s with
          before := some ','
          tokens := []
          frames := ⟨frame.outer, s.tokens.reverse :: frame.branches⟩ :: frames } := by
  unfold State.comma
  split
  · next hframes => exact Or.inl ⟨hframes, rfl⟩
  · next outer branches frames hframes => exact Or.inr ⟨_, _, hframes, rfl⟩

lemma comma_of_frames_eq_nil {s : State} (h : s.frames = []) :
    s.comma = s.push ',' (.literal ',') := by
  unfold State.comma
  rw [h]

/-! ### Two stars -/

/-- **What two stars can do.**  They are two stars without a meaning, components at the front, or
components in place of a slash; they go up to the end of the stars or take in the slash behind
them. -/
lemma stars_cases (s : State) (text : List Char) :
    ∃ before tokens rest, s.stars text = ({ s with before := before, tokens := tokens }, rest) ∧
      (before = some '*' ∧ rest = text ∨ before = some '/' ∧ text = '/' :: rest) ∧
      (tokens = .many :: .many :: s.tokens ∨
        s.tokens = [] ∧ tokens = [.componentsFirst] ∨
        s.tokens ≠ [] ∧ ∃ t, (t = .componentsLast ∨ t = .componentsBetween) ∧
          tokens = s.replaceSlash t) := by
  unfold State.stars State.twoStars
  dsimp only
  -- Nothing has been read: components at the front, if a slash or the end follows.
  by_cases hempty : s.tokens = []
  · have hisEmpty : s.tokens.isEmpty = true := by simp [hempty]
    rw [if_pos hisEmpty]
    split
    · exact ⟨_, _, _, rfl, Or.inl ⟨rfl, rfl⟩, Or.inr (Or.inl ⟨hempty, rfl⟩)⟩
    · exact ⟨_, _, _, rfl, Or.inr ⟨rfl, rfl⟩, Or.inr (Or.inl ⟨hempty, rfl⟩)⟩
    · exact ⟨_, _, _, rfl, Or.inl ⟨rfl, rfl⟩, Or.inl rfl⟩
  -- Something has been read: the stars mean components only behind a slash, or at the front of a
  -- branch, and then only before a slash, the end, or the end of the branch.
  · have hisEmpty : ¬ s.tokens.isEmpty = true := by simp [hempty]
    rw [if_neg hisEmpty]
    split
    · exact ⟨_, _, _, rfl, Or.inl ⟨rfl, rfl⟩, Or.inl rfl⟩
    · split
      · exact ⟨_, _, _, rfl, Or.inl ⟨rfl, rfl⟩, Or.inr (Or.inr ⟨hempty, _, Or.inl rfl, rfl⟩)⟩
      · exact ⟨_, _, _, rfl, Or.inr ⟨rfl, rfl⟩, Or.inr (Or.inr ⟨hempty, _, Or.inr rfl, rfl⟩)⟩
      · split
        · exact ⟨_, _, _, rfl, Or.inl ⟨rfl, rfl⟩, Or.inr (Or.inr ⟨hempty, _, Or.inl rfl, rfl⟩)⟩
        · exact ⟨_, _, _, rfl, Or.inl ⟨rfl, rfl⟩, Or.inl rfl⟩

lemma stars_tokens (s : State) (text : List Char) :
    (s.stars text).1.frames = s.frames ∧
      ((s.stars text).1.tokens = .many :: .many :: s.tokens ∨
        s.tokens = [] ∧ (s.stars text).1.tokens = [.componentsFirst] ∨
        s.tokens ≠ [] ∧ ∃ t, (t = .componentsLast ∨ t = .componentsBetween) ∧
          (s.stars text).1.tokens = s.replaceSlash t) := by
  obtain ⟨before, tokens, rest, heq, -, htokens⟩ := stars_cases s text
  rw [heq]
  exact ⟨rfl, htokens⟩

lemma stars_plainBrackets (s : State) (text : List Char) :
    (s.stars text).1.plainBrackets = s.plainBrackets := by
  obtain ⟨before, tokens, rest, heq, -, -⟩ := stars_cases s text
  rw [heq]

lemma stars_before (s : State) {text : List Char} (htext : '/' ∉ text) :
    (s.stars text).1.before = some '*' := by
  obtain ⟨before, tokens, rest, heq, ⟨hbefore, -⟩ | ⟨-, rfl⟩, -⟩ := stars_cases s text
  · rw [heq, hbefore]
  · exact absurd List.mem_cons_self htext

lemma stars_suffix (s : State) (text : List Char) : (s.stars text).2 <:+ text := by
  obtain ⟨before, tokens, rest, heq, hrest, -⟩ := stars_cases s text
  have hleft : (s.stars text).2 = rest := by rw [heq]
  rw [hleft]
  obtain ⟨-, htext⟩ | ⟨-, htext⟩ := hrest
  · exact htext ▸ List.suffix_refl _
  · exact htext ▸ List.suffix_cons _ _

lemma replaceSlash_ne_nil {s : State} (h : s.tokens ≠ []) (t : Token) : s.replaceSlash t ≠ [] := by
  unfold State.replaceSlash
  split
  · exact h
  · exact h
  · exact List.cons_ne_nil _ _

/-! ### What stands behind -/

lemma classFrom_append {s : ClassState} {text behind : List Char} {ranges : List (Char × Char)}
    (h : classFrom s text = .ok (some (ranges, behind))) (more : List Char) :
    classFrom s (text ++ more) = .ok (some (ranges, behind ++ more)) ∧ behind <:+ text := by
  fun_induction classFrom s text with
  | case1 => exact nomatch h
  | case2 s c rest hend =>
    obtain ⟨rfl, rfl⟩ : s.finish = ranges ∧ rest = behind := by simpa using h
    exact ⟨by rw [List.cons_append, classFrom, if_pos hend], List.suffix_cons c rest⟩
  | case3 s c rest hend hminus ih =>
    obtain ⟨hmore, hbehind⟩ := ih h
    refine ⟨?_, hbehind.trans (List.suffix_cons c rest)⟩
    rw [List.cons_append, classFrom, if_neg hend, if_pos hminus, hmore]
  | case4 s c rest hend hminus s' hadd ih =>
    obtain ⟨hmore, hbehind⟩ := ih h
    refine ⟨?_, hbehind.trans (List.suffix_cons c rest)⟩
    rw [List.cons_append, classFrom, if_neg hend, if_neg hminus, hadd]
    exact hmore
  | case5 => exact nomatch h

/-- The mark of a negated class, and the text behind it. -/
def classFront (text : List Char) : Bool × List Char :=
  match text with
  | '!' :: rest | '^' :: rest => (true, rest)
  | _ => (false, text)

lemma readClass_eq_ok_iff (text behind : List Char) (cls : CharClass) :
    readClass text = .ok (some (cls, behind)) ↔
      cls.negated = (classFront text).1 ∧
        classFrom ⟨[], false, true⟩ (classFront text).2 = .ok (some (cls.ranges, behind)) := by
  have hread : readClass text =
      (classFrom ⟨[], false, true⟩ (classFront text).2).map fun found =>
        found.map fun p => (CharClass.mk (classFront text).1 p.1, p.2) := by
    unfold readClass classFront
    dsimp only
    rcases classFrom _ _ with defect | _ | ⟨ranges, found⟩ <;> rfl
  rw [hread]
  rcases classFrom _ (classFront text).2 with defect | _ | ⟨ranges, found⟩
  · simp [Except.map]
  · simp [Except.map]
  · cases cls
    simp [Except.map, eq_comm, and_assoc]

lemma classFront_append {text : List Char} (h : text ≠ []) (more : List Char) :
    classFront (text ++ more) = ((classFront text).1, (classFront text).2 ++ more) := by
  obtain ⟨c, rest, rfl⟩ := List.exists_cons_of_ne_nil h
  rw [List.cons_append]
  unfold classFront
  split <;> split <;> simp_all

lemma classFront_suffix (text : List Char) : (classFront text).2 <:+ text := by
  unfold classFront
  split
  · exact List.suffix_cons _ _
  · exact List.suffix_cons _ _
  · exact List.suffix_refl _

lemma readClass_append {text behind : List Char} {cls : CharClass}
    (h : readClass text = .ok (some (cls, behind))) (more : List Char) :
    readClass (text ++ more) = .ok (some (cls, behind ++ more)) ∧ behind <:+ text := by
  have hne : text ≠ [] := by
    rintro rfl
    exact nomatch h
  obtain ⟨hnegated, hranges⟩ := (readClass_eq_ok_iff text behind cls).mp h
  obtain ⟨hmore, hbehind⟩ := classFrom_append hranges more
  refine ⟨?_, hbehind.trans (classFront_suffix text)⟩
  rw [readClass_eq_ok_iff, classFront_append hne]
  exact ⟨hnegated, hmore⟩

lemma stars_append (s : State) {text : List Char} (h : text ≠ []) (more : List Char) :
    s.stars (text ++ more) = ((s.stars text).1, (s.stars text).2 ++ more) := by
  obtain ⟨c, rest, rfl⟩ := List.exists_cons_of_ne_nil h
  rw [List.cons_append]
  by_cases hslash : c = '/'
  · subst hslash
    unfold State.stars
    dsimp only
    split
    · rfl
    · split <;> rfl
  · unfold State.stars
    simp only [List.cons.injEq, hslash, false_and, imp_self, implies_true]
    split
    · rfl
    · split
      · rfl
      · split <;> rfl

lemma Step.suffix {s s' : State} {text rest : List Char} (h : Step s text s' rest) :
    rest <:+ text := by
  cases h with
  | any | many | openChoice | closeChoice | comma | literal => exact List.suffix_cons _ _
  | stars rest => exact (stars_suffix s rest).trans ⟨['*', '*'], rfl⟩
  | oneOf rest _ hclass => exact (readClass_append hclass []).2.trans (List.suffix_cons _ _)
  | escape d => exact ⟨['\\', d], rfl⟩

lemma Step.length_lt {s s' : State} {text rest : List Char} (h : Step s text s' rest) :
    rest.length < text.length := by
  cases h with
  | any | many | openChoice | closeChoice | comma | literal => simp
  | stars rest =>
    have hle := (stars_suffix s rest).length_le
    simp only [List.length_cons]
    omega
  | oneOf rest _ hclass =>
    have hle := (readClass_append hclass []).2.length_le
    simp only [List.length_cons]
    omega
  | escape =>
    simp only [List.length_cons]
    omega

/-- A step takes no notice of a slash and what is behind it, unless it reads two stars right before
that slash. -/
lemma Step.append {s s' : State} {text rest : List Char} (h : Step s text s' rest)
    (hstars : text ≠ ['*', '*']) (more : List Char) :
    Step s (text ++ '/' :: more) s' (rest ++ '/' :: more) := by
  cases h with
  | any => exact .any _
  | many _ hhead =>
    refine .many _ ?_
    cases rest with
    | nil => simp
    | cons d rest => simpa using hhead
  | stars rest =>
    have hne : rest ≠ [] := by
      rintro rfl
      exact hstars rfl
    have hstep := Step.stars (s := s) (rest ++ '/' :: more)
    rwa [stars_append s hne] at hstep
  | oneOf rest hplain hclass => exact .oneOf _ hplain (readClass_append hclass _).1
  | openChoice => exact .openChoice _
  | closeChoice _ hclose => exact .closeChoice _ hclose
  | comma => exact .comma _
  | escape d => exact .escape d _
  | literal c _ hc hbracket => exact .literal c _ hc hbracket

end SheetLint.Glob
