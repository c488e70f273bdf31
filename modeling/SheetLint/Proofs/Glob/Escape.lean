import Mathlib.Data.Nat.Init
import SheetLint.Proofs.Glob.Bytes
import SheetLint.Proofs.Glob.Language
import SheetLint.Proofs.Glob.Reading

/-!
# Globs that begin with an escaped text

Escaping puts each character that means something in a glob into a class of its own, save for the
backslash.  So an escaped text without backslashes is read as tokens that describe that text alone
(`tokensFrom_escape`).  When a slash follows it, every further token of the glob stands behind a
token that begins with a slash: what comes later can change that slash into components, but not take
it away.  Such a glob matches nothing but what continues the text with a slash:
`exists_of_matchesPath_escape`.

A backslash takes the meaning of the next character away, and is itself not matched.  Of `n`
backslashes in a row at most half are tokens, and the token behind these begins with something else.
So a glob with a backslash in its escaped text does not match the text, nor anything that continues
it: `not_matchesPath_of_backslash`.  Directories with such names are lost to every pattern that
walks, whatever its steps are.

Both theorems rest on `Continues`, which says of a state that a certain token has been read and can
only be overtaken by components.  It is kept by every step of the reader (`Continues.step`).
-/

namespace SheetLint.Glob

open String (utf8EncodeChar)

/-- The character stands for itself in an escaped text.  Backslashes do not: they are left as they
are, and take the meaning of the next character away. -/
def IsEscapable (c : Char) : Prop := c ≠ '\\'

/-- The token that an escaped character is read as. -/
def escapedToken (c : Char) : Token :=
  if isEscaped c then .oneOf ⟨false, [(c, c)]⟩ else .literal c

lemma isEscaped_cases {c : Char} (h : isEscaped c = true) :
    c = '?' ∨ c = '*' ∨ c = '[' ∨ c = ']' ∨ c = '\x7b' ∨ c = '\x7d' := by
  simpa [isEscaped, or_assoc] using h

lemma describes_escapedToken {c : Char} (text : List UInt8) :
    (escapedToken c).expr.Describes text ↔ text = utf8EncodeChar c := by
  by_cases h : isEscaped c
  · rw [escapedToken, if_pos h]
    rcases isEscaped_cases h with rfl | rfl | rfl | rfl | rfl | rfl
    · exact Expr.describes_exactly 63 text
    · exact Expr.describes_exactly 42 text
    · exact Expr.describes_exactly 91 text
    · exact Expr.describes_exactly 93 text
    · exact Expr.describes_exactly 123 text
    · exact Expr.describes_exactly 125 text
  · rw [escapedToken, if_neg h]
    exact describes_literal c text

lemma tokensDescribe_escaped (text : List Char) (bytes : List UInt8) :
    TokensDescribe (text.map escapedToken) bytes ↔ bytes = text.flatMap utf8EncodeChar := by
  induction text generalizing bytes with
  | nil => exact Iff.rfl
  | cons c text ih =>
    rw [List.map_cons, tokensDescribe_cons, List.flatMap_cons]
    constructor
    · rintro ⟨u, v, rfl, hu, hv⟩
      rw [(describes_escapedToken u).mp hu, (ih v).mp hv]
    · rintro rfl
      exact ⟨_, _, rfl, (describes_escapedToken _).mpr rfl, (ih _).mpr rfl⟩

/-! ### Reading an escaped text -/

/-- The state is outside of all choices, and brackets open classes. -/
def IsPlain (s : State) : Prop := s.frames = [] ∧ ¬ s.plainBrackets

lemma isPlain_start : IsPlain ⟨none, [], [], false⟩ := ⟨rfl, nofun⟩

lemma escape_append (front back : List Char) :
    escape (front ++ back) = escape front ++ escape back :=
  List.flatMap_append

lemma escape_eq_self {text : List Char} (h : ∀ c ∈ text, isEscaped c = false) :
    escape text = text := by
  induction text with
  | nil => rfl
  | cons c text ih =>
    obtain ⟨hc, htext⟩ := List.forall_mem_cons.mp h
    have hcons : escape (c :: text) = (if isEscaped c then ['[', c, ']'] else [c]) ++ escape text :=
      rfl
    rw [hcons, hc, ih htext]
    rfl

lemma length_le_escape (text : List Char) : text.length ≤ (escape text).length := by
  induction text with
  | nil => exact Nat.le_refl 0
  | cons c text ih =>
    have hcons : escape (c :: text) = (if isEscaped c then ['[', c, ']'] else [c]) ++ escape text :=
      rfl
    have hone : 1 ≤ (if isEscaped c then ['[', c, ']'] else [c]).length := by
      split <;> simp
    rw [hcons, List.length_append, List.length_cons]
    omega

lemma step_escaped {s : State} (hs : IsPlain s) {c : Char} (hc : IsEscapable c)
    (rest : List Char) :
    ∃ s', Step s (escape [c] ++ rest) s' rest ∧ IsPlain s' ∧
      s'.tokens = escapedToken c :: s.tokens := by
  by_cases h : isEscaped c
  · have hescape : escape [c] ++ rest = '[' :: c :: ']' :: rest := by
      simp [escape, h]
    have hclass : readClass (c :: ']' :: rest) = .ok (some (⟨false, [(c, c)]⟩, rest)) := by
      rcases isEscaped_cases h with rfl | rfl | rfl | rfl | rfl | rfl <;> rfl
    rw [hescape, escapedToken, if_pos h]
    exact ⟨_, .oneOf _ hs.2 hclass, hs, rfl⟩
  · have hescape : escape [c] ++ rest = c :: rest := by
      simp [escape, h]
    have hne : c ≠ '?' ∧ c ≠ '*' ∧ c ≠ '[' ∧ c ≠ ']' ∧ c ≠ '\x7b' ∧ c ≠ '\x7d' := by
      simpa [isEscaped, and_assoc] using h
    rw [hescape, escapedToken, if_neg h]
    by_cases hcomma : c = ','
    · subst hcomma
      have hpush := comma_of_frames_eq_nil hs.1
      exact ⟨_, .comma rest, by rw [hpush]; exact hs, by rw [hpush]; rfl⟩
    · have hspecial : isSpecial c = false := by
        have hbackslash : c ≠ '\\' := hc
        simp [isSpecial, hne, hbackslash, hcomma]
      exact ⟨_, .literal c rest hspecial fun hbracket => hne.2.2.1 hbracket.1, hs, rfl⟩

lemma tokensFrom_escape {s : State} (hs : IsPlain s) {text : List Char}
    (htext : ∀ c ∈ text, IsEscapable c) (rounds : Nat) (rest : List Char) :
    ∃ s', tokensFrom false (text.length + rounds) s (escape text ++ rest) =
        tokensFrom false rounds s' rest ∧ IsPlain s' ∧
      s'.tokens = (text.map escapedToken).reverse ++ s.tokens := by
  induction text generalizing s with
  | nil => exact ⟨s, by rw [List.length_nil, Nat.zero_add]; rfl, hs, rfl⟩
  | cons c text ih =>
    obtain ⟨s₁, hstep, hs₁, htokens₁⟩ :=
      step_escaped hs (htext c (by simp)) (escape text ++ rest)
    obtain ⟨s', hread, hs', htokens⟩ := ih hs₁ fun d hd => htext d (by simp [hd])
    refine ⟨s', ?_, hs', ?_⟩
    · have hcons : escape (c :: text) ++ rest = escape [c] ++ (escape text ++ rest) := by
        simp [escape]
      have hlen : (c :: text).length + rounds = text.length + rounds + 1 := by
        rw [List.length_cons]
        omega
      rw [hcons, hlen, tokensFrom_of_step hstep, hread]
    · rw [htokens, htokens₁, List.map_cons, List.reverse_cons, List.append_assoc]
      rfl

/-! ### What stays in front of a glob -/

/-- The tokens outside of all choices, in reverse. -/
def outermost (tokens : List Token) : List Frame → List Token
  | [] => tokens
  | frame :: frames => outermost frame.outer frames

/-- Outside of all choices, a token with the property `P` stands right behind the tokens of `front`,
which are given in reverse. -/
def Continues (P : Token → Prop) (front tokens : List Token) (frames : List Frame) : Prop :=
  ∃ more t, outermost tokens frames = more ++ t :: front ∧ P t

/-- The token begins with a slash. -/
def IsSlash (t : Token) : Prop :=
  t = .literal '/' ∨ t = .componentsLast ∨ t = .componentsBetween

lemma IsSlash.describes {t : Token} (h : IsSlash t) {text : List UInt8}
    (htext : t.expr.Describes text) : ∃ below, text = 47 :: below := by
  rcases h with rfl | rfl | rfl
  · exact ⟨[], (describes_literal '/' text).mp htext⟩
  · exact (describes_componentsLast text).mp htext
  · exact describes_componentsBetween htext

namespace Continues

variable {P : Token → Prop} {front : List Token}

lemma cons {tokens : List Token} {frames : List Frame} (h : Continues P front tokens frames)
    (t : Token) : Continues P front (t :: tokens) frames := by
  cases frames with
  | nil =>
    obtain ⟨more, first, heq, hfirst⟩ := h
    have heq : tokens = more ++ first :: front := heq
    exact ⟨t :: more, first, by rw [outermost, heq, List.cons_append], hfirst⟩
  | cons frame frames => exact h

lemma of_token {s : State} (hframes : s.frames = []) {t : Token} (htokens : s.tokens = t :: front)
    (ht : P t) : Continues P front s.tokens s.frames :=
  ⟨[], t, by rw [hframes, outermost, htokens, List.nil_append], ht⟩

variable (hP : ∀ t, IsSlash t → P t)

include hP

lemma stars {s : State} (h : Continues P front s.tokens s.frames) (text : List Char) :
    Continues P front (s.stars text).1.tokens (s.stars text).1.frames := by
  obtain ⟨hframes, htokens⟩ := stars_tokens s text
  rw [hframes]
  cases hs : s.frames with
  | cons frame frames =>
    rw [hs] at h
    exact h
  | nil =>
    rw [hs] at h
    rcases htokens with htwo | ⟨hempty, -⟩ | ⟨-, t, ht, hslash⟩
    · rw [htwo]
      exact (h.cons .many).cons .many
    · obtain ⟨more, first, heq, -⟩ := h
      rw [hempty] at heq
      have hnil : more ++ first :: front = [] := heq.symm
      exact absurd hnil (List.append_ne_nil_of_right_ne_nil _ (List.cons_ne_nil _ _))
    · rw [hslash]
      unfold State.replaceSlash
      split
      · exact h
      · exact h
      · obtain ⟨more, first, heq, hfirst⟩ := h
        have heq : s.tokens = more ++ first :: front := heq
        rw [heq]
        -- the components overtake the token itself if nothing has been read behind it
        cases more with
        | nil => exact ⟨[], t, rfl, hP t (Or.inr ht)⟩
        | cons last more => exact ⟨t :: more, first, rfl, hfirst⟩

lemma step {s s' : State} {text rest : List Char} (hstep : Step s text s' rest)
    (h : Continues P front s.tokens s.frames) : Continues P front s'.tokens s'.frames := by
  cases hstep with
  | any | many | oneOf | escape | literal => exact h.cons _
  | stars rest => exact h.stars hP rest
  | openChoice => exact h
  | closeChoice _ hclose =>
    obtain ⟨frame, frames, hframes, rfl⟩ := exists_of_closeChoice hclose
    rw [hframes] at h
    have houter : Continues P front frame.outer frames := h
    exact houter.cons _
  | comma =>
    rcases comma_cases s with ⟨-, hcomma⟩ | ⟨frame, frames, hframes, hcomma⟩
    · rw [hcomma]
      exact h.cons _
    · rw [hframes] at h
      rw [hcomma]
      exact h

/-- What has been read behind the front stays there up to the end. -/
lemma tokensFrom {rounds : Nat} {s final : State} {text : List Char}
    (hread : Glob.tokensFrom false rounds s text = .ok final)
    (h : Continues P front s.tokens s.frames) : Continues P front final.tokens final.frames :=
  tokensFrom_invariant (P := fun s => Continues P front s.tokens s.frames)
    (fun _ _ _ _ hstep h => h.step hP hstep) hread h

omit hP in
lemma exists_of_matchesPath (hfirst : ¬ P .componentsFirst) {front : List Char}
    {tokens : List Token} (h : Continues P (front.map escapedToken).reverse tokens [])
    {path : String} (hmatches : (ofTokens tokens.reverse).matchesPath path = true) :
    ∃ t text more, P t ∧ t.expr.Describes text ∧
      bytes path = front.flatMap utf8EncodeChar ++ (text ++ more) := by
  obtain ⟨more, t, heq, ht⟩ := h
  have heq : tokens = more ++ t :: (front.map escapedToken).reverse := heq
  have hne : tokens.reverse ≠ [.componentsFirst] := by
    intro hsingle
    have hmem : t ∈ tokens.reverse := by simp [heq]
    rw [hsingle, List.mem_singleton] at hmem
    exact hfirst (hmem ▸ ht)
  have hbytes := ((matchesPath_ofTokens_iff _ path).mp hmatches).resolve_left hne
  rw [heq, List.reverse_append, List.reverse_cons, List.reverse_reverse, List.append_assoc,
    List.singleton_append, tokensDescribe_append] at hbytes
  obtain ⟨u, v, hpath, hu, hv⟩ := hbytes
  obtain ⟨text, behind, rfl, htext, -⟩ := (tokensDescribe_cons t more.reverse v).mp hv
  rw [(tokensDescribe_escaped front u).mp hu] at hpath
  exact ⟨t, text, behind, ht, htext, hpath⟩

end Continues

/-! ### A front without backslashes -/

/-- **What an escaped front admits.**  A glob that begins with an escaped text and a slash matches
only what begins with that text and a slash. -/
theorem exists_of_matchesPath_escape {front : List Char} (hfront : ∀ c ∈ front, IsEscapable c)
    {rest : List Char} {g : Glob}
    (hread : read false (String.ofList (escape front ++ '/' :: rest)) = .ok g) {path : String}
    (h : g.matchesPath path = true) :
    ∃ below, bytes path = front.flatMap utf8EncodeChar ++ 47 :: below := by
  obtain ⟨s, htokens, hframes, rfl⟩ := (read_eq_ok_iff _ g).mp hread
  rw [String.toList_ofList] at htokens
  obtain ⟨rounds, hrounds⟩ : ∃ rounds, (escape front ++ '/' :: rest).length + 1 =
      front.length + (rounds + 1) := by
    have hle := length_le_escape front
    refine ⟨(escape front ++ '/' :: rest).length - front.length, ?_⟩
    rw [List.length_append]
    omega
  rw [hrounds] at htokens
  obtain ⟨s₁, hescaped, hs₁, htokens₁⟩ :=
    tokensFrom_escape isPlain_start hfront (rounds + 1) ('/' :: rest)
  -- Behind the front, the slash is read as a literal, and from then on it can only be overtaken.
  have hslash : Step s₁ ('/' :: rest) (s₁.push '/' (.literal '/')) rest :=
    .literal '/' rest rfl (by simp)
  rw [hescaped, tokensFrom_of_step hslash] at htokens
  have hcontinues : Continues IsSlash (front.map escapedToken).reverse s.tokens s.frames := by
    rw [List.append_nil] at htokens₁
    have hbehind : (s₁.push '/' (.literal '/')).tokens =
        .literal '/' :: (front.map escapedToken).reverse := by
      rw [State.push, htokens₁]
    exact (Continues.of_token (s := s₁.push _ _) hs₁.1 hbehind (Or.inl rfl)).tokensFrom
      (fun _ => id) htokens
  rw [hframes] at hcontinues
  have hfirst : ¬ IsSlash .componentsFirst := by
    rintro (h | h | h) <;> exact nomatch h
  obtain ⟨t, text, more, ht, htext, hpath⟩ := hcontinues.exists_of_matchesPath hfirst h
  obtain ⟨below, rfl⟩ := ht.describes htext
  exact ⟨below ++ more, hpath⟩

/-! ### A front with backslashes -/

/-- What the token describes begins with something else than a backslash. -/
def BeginsOtherwise (t : Token) : Prop :=
  ∀ text, t.expr.Describes text → ∀ more rest, text ++ more ≠ 92 :: rest

lemma IsSlash.beginsOtherwise {t : Token} (h : IsSlash t) : BeginsOtherwise t := by
  intro text htext more rest heq
  obtain ⟨below, rfl⟩ := h.describes htext
  exact absurd (List.cons.inj heq).1 (by decide)

lemma beginsOtherwise_literal {c : Char} (hc : IsEscapable c) : BeginsOtherwise (.literal c) := by
  intro text htext more rest
  rw [(describes_literal c text).mp htext]
  exact utf8EncodeChar_append_ne hc more rest

lemma beginsOtherwise_escapedToken {c : Char} (hc : IsEscapable c) :
    BeginsOtherwise (escapedToken c) := by
  intro text htext more rest
  rw [(describes_escapedToken text).mp htext]
  exact utf8EncodeChar_append_ne hc more rest

lemma not_beginsOtherwise_componentsFirst : ¬ BeginsOtherwise .componentsFirst :=
  fun h => h [] (Or.inl rfl) [92] [] rfl

/-- No backslash stands behind an escaped text that does not begin with one. -/
lemma exists_cons_of_head?_ne {other : List Char} (hother : other.head? ≠ some '\\')
    (rest : List Char) :
    ∃ d behind, escape other ++ '/' :: rest = d :: behind ∧ IsEscapable d := by
  cases other with
  | nil => exact ⟨'/', rest, rfl, by unfold IsEscapable; decide⟩
  | cons c other =>
    have hcons : escape (c :: other) =
        (if isEscaped c then ['[', c, ']'] else [c]) ++ escape other := rfl
    rw [hcons]
    split
    · exact ⟨'[', _, rfl, by unfold IsEscapable; decide⟩
    · exact ⟨c, _, rfl, by simpa [IsEscapable] using hother⟩

/-- Behind an escaped text that does not begin with a backslash stands a token that begins with
something else, if the text goes on with a slash. -/
lemma exists_step_of_head?_ne {s : State} (hs : IsPlain s) {other : List Char}
    (hother : other.head? ≠ some '\\') (rest : List Char) :
    ∃ s' rest' t, Step s (escape other ++ '/' :: rest) s' rest' ∧ s'.frames = [] ∧
      s'.tokens = t :: s.tokens ∧ BeginsOtherwise t := by
  cases other with
  | nil =>
    exact ⟨_, _, _, .literal '/' rest rfl (by simp), hs.1, rfl,
      beginsOtherwise_literal (by unfold IsEscapable; decide)⟩
  | cons c other =>
    have hc : IsEscapable c := by simpa [IsEscapable] using hother
    obtain ⟨s', hstep, hs', htokens⟩ := step_escaped hs hc (escape other ++ '/' :: rest)
    have hcons : escape (c :: other) ++ '/' :: rest =
        escape [c] ++ (escape other ++ '/' :: rest) := by
      simp [escape]
    exact ⟨s', _, _, hcons ▸ hstep, hs'.1, htokens, beginsOtherwise_escapedToken hc⟩

/-- **Backslashes in a row.**  At most half of them are read as backslashes, and the token that
follows these begins with something else. -/
lemma exists_continues_of_backslashes {n rounds : Nat} (hrounds : n < rounds) {s final : State}
    (hs : IsPlain s) {other rest : List Char} (hother : other.head? ≠ some '\\')
    (hread : tokensFrom false rounds s
      (List.replicate n '\\' ++ (escape other ++ '/' :: rest)) = .ok final) :
    ∃ k, 2 * k ≤ n ∧
      Continues BeginsOtherwise ((List.replicate k '\\').map escapedToken ++ s.tokens)
        final.tokens final.frames := by
  obtain ⟨rounds, rfl⟩ : ∃ fewer, rounds = fewer + 1 := ⟨rounds - 1, by omega⟩
  have hslash : ∀ t, IsSlash t → BeginsOtherwise t := fun _ ht => ht.beginsOtherwise
  -- a step reads two backslashes as one of them, or the last one with what stands behind it
  induction n using Nat.twoStepInduction generalizing s rounds with
  | zero =>
    obtain ⟨s', rest', t, hstep, hframes, htokens, ht⟩ := exists_step_of_head?_ne hs hother rest
    rw [List.replicate_zero, List.nil_append, tokensFrom_of_step hstep] at hread
    exact ⟨0, Nat.le_refl 0, (Continues.of_token hframes htokens ht).tokensFrom hslash hread⟩
  -- an odd backslash is left: it escapes what begins the text behind the backslashes
  | one =>
    obtain ⟨d, behind, hcons, hd⟩ := exists_cons_of_head?_ne hother rest
    rw [hcons] at hread
    have hread := (tokensFrom_of_step (.escape d behind) rounds).symm.trans hread
    have htoken : Continues BeginsOtherwise s.tokens (s.push d (.literal d)).tokens s.frames :=
      .of_token (s := s.push d (.literal d)) hs.1 rfl (beginsOtherwise_literal hd)
    exact ⟨0, Nat.zero_le 1, htoken.tokensFrom hslash hread⟩
  | more n ih _ =>
    have hread := (tokensFrom_of_step (.escape '\\' _) rounds).symm.trans hread
    obtain ⟨rounds, rfl⟩ : ∃ fewer, rounds = fewer + 1 := ⟨rounds - 1, by omega⟩
    obtain ⟨k, hk, hcontinues⟩ :=
      ih (s := s.push '\\' (.literal '\\')) hs rounds (by omega) hread
    refine ⟨k + 1, by omega, ?_⟩
    have hfront : (List.replicate (k + 1) '\\').map escapedToken ++ s.tokens =
        (List.replicate k '\\').map escapedToken ++ (.literal '\\' :: s.tokens) := by
      rw [List.replicate_succ', List.map_append, List.append_assoc]
      rfl
    rw [hfront]
    exact hcontinues

lemma exists_eq_replicate_append (c : Char) (text : List Char) :
    ∃ n other, text = List.replicate n c ++ other ∧ other.head? ≠ some c := by
  induction text with
  | nil => exact ⟨0, [], rfl, nofun⟩
  | cons d text ih =>
    by_cases hd : d = c
    · obtain ⟨n, other, rfl, hother⟩ := ih
      exact ⟨n + 1, other, by rw [hd]; rfl, hother⟩
    · exact ⟨0, d :: text, rfl, by simpa using hd⟩

/-- Of a front with backslashes the tokens stand for a part that a backslash follows, and behind
them is a token that begins with something else. -/
lemma exists_continues_of_mem {front rest : List Char} (hfront : '\\' ∈ front) {s : State}
    (hread : tokensFrom false ((escape front ++ '/' :: rest).length + 1) ⟨none, [], [], false⟩
      (escape front ++ '/' :: rest) = .ok s) :
    ∃ read unread, front = read ++ '\\' :: unread ∧
      Continues BeginsOtherwise (read.map escapedToken).reverse s.tokens s.frames := by
  obtain ⟨before, behind, rfl, hbefore⟩ := List.eq_append_cons_of_mem hfront
  obtain ⟨n, other, rfl, hother⟩ := exists_eq_replicate_append '\\' behind
  have hescape : escape (before ++ '\\' :: (List.replicate n '\\' ++ other)) ++ '/' :: rest =
      escape before ++ (List.replicate (n + 1) '\\' ++ (escape other ++ '/' :: rest)) := by
    have hplain : escape (List.replicate (n + 1) '\\') = List.replicate (n + 1) '\\' :=
      escape_eq_self fun c hc => by rw [List.eq_of_mem_replicate hc]; rfl
    rw [← List.cons_append, ← List.replicate_succ, escape_append, escape_append, hplain]
    simp only [List.append_assoc]
  rw [hescape] at hread
  obtain ⟨rounds, hrounds, hlt⟩ : ∃ rounds,
      (escape before ++ (List.replicate (n + 1) '\\' ++ (escape other ++ '/' :: rest))).length + 1 =
        before.length + rounds ∧ n + 1 < rounds := by
    have hle := length_le_escape before
    refine ⟨(escape before).length - before.length + (n + 1) +
      (escape other ++ '/' :: rest).length + 1, ?_, by omega⟩
    simp only [List.length_append, List.length_replicate]
    omega
  have hescapable : ∀ c ∈ before, IsEscapable c := fun c hc heq => hbefore (heq ▸ hc)
  obtain ⟨s₁, hescaped, hs₁, htokens₁⟩ := tokensFrom_escape isPlain_start hescapable rounds
    (List.replicate (n + 1) '\\' ++ (escape other ++ '/' :: rest))
  rw [hrounds, hescaped] at hread
  obtain ⟨k, hk, hcontinues⟩ := exists_continues_of_backslashes hlt hs₁ hother hread
  -- at least one of the backslashes is left, as `k` is at most half of them
  obtain ⟨left, rfl⟩ : ∃ left, n = k + left := ⟨n - k, by omega⟩
  refine ⟨before ++ List.replicate k '\\', List.replicate left '\\' ++ other, ?_, ?_⟩
  · rw [← List.cons_append, ← List.replicate_succ, Nat.add_assoc,
      ← List.replicate_append_replicate, List.replicate_succ]
    simp only [List.append_assoc, List.cons_append]
  · rw [htokens₁] at hcontinues
    simpa using hcontinues

/-- **A front with a backslash is not matched.**  A glob that begins with an escaped text and a
slash matches nothing that begins with that text, if the text has a backslash. -/
theorem not_matchesPath_of_backslash {front : List Char} (hfront : '\\' ∈ front)
    {rest : List Char} {g : Glob}
    (hread : read false (String.ofList (escape front ++ '/' :: rest)) = .ok g) {path : String}
    {lower : List UInt8} (hpath : bytes path = front.flatMap utf8EncodeChar ++ lower) :
    g.matchesPath path = false := by
  obtain ⟨s, htokens, hframes, rfl⟩ := (read_eq_ok_iff _ g).mp hread
  rw [String.toList_ofList] at htokens
  obtain ⟨read, unread, rfl, hcontinues⟩ := exists_continues_of_mem hfront htokens
  rw [hframes] at hcontinues
  rw [← Bool.not_eq_true]
  intro hmatches
  obtain ⟨t, text, more, ht, htext, hmatched⟩ :=
    hcontinues.exists_of_matchesPath not_beginsOtherwise_componentsFirst hmatches
  rw [hpath, List.flatMap_append, List.append_assoc, List.append_cancel_left_eq] at hmatched
  exact ht text htext more _ hmatched.symm

end SheetLint.Glob
