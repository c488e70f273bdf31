import Mathlib.Data.List.Forall2
import SheetLint.Proofs.Text.Blank
import SheetLint.Proofs.Text.Pieces
import SheetLint.Stylesheet.Directive

/-!
# Directives read back

A directive is written as the word of its command and, behind a blank, its rule names with commas
between them, with any blanks in front of the word and around the names, `IsWritten`.  What is
written so is read as that directive, with or without a description behind it: `ofText?_written`.

The description cannot begin any earlier than it is written.  Its mark is the word `--` between two
blanks, and the words of a written directive are its command and its names, none of which is `--`
(`cases_of_mem_words`).  Nor can a mark lie across the end of the directive, since it would have to
have a dash where it has a blank (`isBefore_append`).

Blanks are those of Unicode, and they are taken away at both ends of the text before its first word
is looked for.  A text of blanks has the empty word for its first one.

Any other text is judged by its first word in front of the first mark: it is no directive unless
that word is one of a command.  This is the second half of `ofText?_written`, and it is about every
text, since every text has a first word (`exists_beginsWith`).
-/

namespace SheetLint.Stylesheet

open Text

lemma Command.ofWord?_eq_some_iff (word : List Char) (command : Command) :
    ofWord? word = some command ↔ command.word.toList = word := by
  refine ⟨fun h => of_decide_eq_true (List.find?_some h :), ?_⟩
  rintro rfl
  cases command <;> decide

lemma Command.ofWord?_eq_none_iff (word : List Char) :
    ofWord? word = none ↔ ∀ command : Command, command.word.toList ≠ word := by
  rw [Option.eq_none_iff_forall_ne_some]
  exact forall_congr' fun command => not_congr (ofWord?_eq_some_iff word command)

lemma Command.isFreeOfBlanks_word (command : Command) :
    IsFreeOfBlanks command.word.toList := by
  cases command <;> decide

namespace Directive

/-! ### Written directives -/

/-- A directive can list the name as that of a rule. -/
structure IsRuleName (name : String) : Prop where
  ne_empty : name ≠ ""
  isFreeOfBlanks : IsFreeOfBlanks name.toList
  noComma : ',' ∉ name.toList
  ne_mark : name ≠ "--"

/-- The text is the name, with any blanks around it. -/
def IsPadded (name : String) (text : List Char) : Prop :=
  ∃ front back, AreBlank front ∧ AreBlank back ∧ text = front ++ name.toList ++ back

/-- The text is the names with commas between them, and any blanks around each. -/
def IsNameList (names : List String) (text : List Char) : Prop :=
  ∃ padded, List.Forall₂ IsPadded names padded ∧ text = [','].intercalate padded

/-- The word is the first one of a text, blanks aside, and `behind` is what follows the blank behind
it.  The first word of a text of blanks is the empty one. -/
inductive BeginsWith (word : List Char) : List Char → List Char → Prop where
  | alone {front : List Char} (blank : AreBlank front) (isWord : IsFreeOfBlanks word) :
    BeginsWith word [] (front ++ word)
  | followed {front behind : List Char} {c : Char} (blank : AreBlank front)
    (isWord : IsFreeOfBlanks word) (ne_nil : word ≠ []) (blankBehind : isBlank c = true) :
    BeginsWith word behind (front ++ word ++ c :: behind)

/-- The text is the directive as it can be written: the word of its command and, if it lists rules,
a blank and their names. -/
def IsWritten (d : Directive) (text : List Char) : Prop :=
  ∃ behind, BeginsWith d.command.word.toList behind text ∧
    (d.rules = [] ∧ AreBlank behind ∨ d.rules ≠ [] ∧ IsNameList d.rules behind)

/-! ### Words -/

/-- Whether the character ends a word of a directive. -/
def endsWord (c : Char) : Bool := isBlank c || c == ','

/-- What stands between the characters that end words. -/
def words (text : List Char) : List (List Char) := text.splitOnP endsWord

lemma endsWord_of_isBlank {c : Char} (h : isBlank c = true) : endsWord c = true := by
  rw [endsWord, h, Bool.true_or]

lemma words_append_cons {c : Char} (hc : endsWord c = true) (front back : List Char) :
    words (front ++ c :: back) = words front ++ words back :=
  List.splitOnP_append_cons front back hc

lemma words_of_forall {word : List Char} (hblank : IsFreeOfBlanks word) (hcomma : ',' ∉ word) :
    words word = [word] := by
  refine List.splitOnP_eq_singleton fun c hc => ?_
  have hne : c ≠ ',' := fun heq => hcomma (heq ▸ hc)
  rw [endsWord, hblank c hc, Bool.false_or, beq_eq_false_iff_ne.mpr hne]

lemma mem_words_of_blank_append {front : List Char} (h : AreBlank front) {text w : List Char}
    (hw : w ∈ words (front ++ text)) : w = [] ∨ w ∈ words text := by
  induction front with
  | nil => exact Or.inr hw
  | cons c front ih =>
    obtain ⟨hc, hfront⟩ := List.forall_mem_cons.mp h
    have hsplit := words_append_cons (endsWord_of_isBlank hc) [] (front ++ text)
    rw [List.cons_append, ← List.nil_append (c :: _), hsplit] at hw
    rcases List.mem_append.mp hw with hempty | hmore
    · exact Or.inl (List.mem_singleton.mp hempty)
    · exact ih hfront hmore

lemma mem_words_of_append_blank {back : List Char} (h : AreBlank back) {text w : List Char}
    (hw : w ∈ words (text ++ back)) : w = [] ∨ w ∈ words text := by
  cases back with
  | nil => exact Or.inr (List.append_nil text ▸ hw)
  | cons c back =>
    obtain ⟨hc, hback⟩ := List.forall_mem_cons.mp h
    rw [words_append_cons (endsWord_of_isBlank hc)] at hw
    rcases List.mem_append.mp hw with hmore | hempty
    · exact Or.inr hmore
    · rw [← List.append_nil back] at hempty
      exact Or.inl ((mem_words_of_blank_append hback hempty).elim id List.mem_singleton.mp)

lemma eq_of_mem_words_padded {name : String} (hname : IsRuleName name) {text w : List Char}
    (htext : IsPadded name text) (hw : w ∈ words text) : w = [] ∨ w = name.toList := by
  obtain ⟨front, back, hfront, hback, rfl⟩ := htext
  rcases mem_words_of_append_blank hback hw with hempty | hw
  · exact Or.inl hempty
  · rcases mem_words_of_blank_append hfront hw with hempty | hw
    · exact Or.inl hempty
    · rw [words_of_forall hname.isFreeOfBlanks hname.noComma] at hw
      exact Or.inr (List.mem_singleton.mp hw)

lemma exists_of_mem_words_list {names : List String} (hnames : ∀ name ∈ names, IsRuleName name)
    {text w : List Char} (htext : IsNameList names text) (hw : w ∈ words text) :
    w = [] ∨ ∃ name ∈ names, w = name.toList := by
  obtain ⟨padded, hpadded, rfl⟩ := htext
  induction hpadded with
  | nil => exact Or.inl (List.mem_singleton.mp hw)
  | @cons name piece names padded hpiece hrest ih =>
    obtain ⟨hname, hnames⟩ := List.forall_mem_cons.mp hnames
    have hfirst (hw : w ∈ words piece) : w = [] ∨ ∃ other ∈ name :: names, w = other.toList :=
      (eq_of_mem_words_padded hname hpiece hw).imp_right fun heq =>
        ⟨name, List.mem_cons_self, heq⟩
    cases hrest with
    | nil =>
      rw [List.intercalate_singleton] at hw
      exact hfirst hw
    | cons _ _ =>
      rw [List.intercalate_cons_cons, List.append_assoc, List.singleton_append,
        words_append_cons (by decide)] at hw
      rcases List.mem_append.mp hw with hw | hw
      · exact hfirst hw
      · exact (ih hnames hw).imp_right fun ⟨other, hmem, heq⟩ =>
          ⟨other, List.mem_cons_of_mem _ hmem, heq⟩

/-- **The words of a written directive**: its command and its names. -/
lemma cases_of_mem_words {d : Directive} (hnames : ∀ name ∈ d.rules, IsRuleName name)
    {text : List Char} (htext : IsWritten d text) {w : List Char} (hw : w ∈ words text) :
    w = [] ∨ w = d.command.word.toList ∨ ∃ name ∈ d.rules, w = name.toList := by
  obtain ⟨behind, hbegins, hbehind⟩ := htext
  have hcommand : words d.command.word.toList = [d.command.word.toList] :=
    words_of_forall d.command.isFreeOfBlanks_word (by cases d.command <;> decide)
  cases hbegins with
  | alone hblank _ =>
    refine (mem_words_of_blank_append hblank hw).imp_right fun hw => Or.inl ?_
    exact List.mem_singleton.mp (hcommand ▸ hw)
  | @followed front behind c hblank _ _ hc =>
    rw [List.append_assoc] at hw
    rcases mem_words_of_blank_append hblank hw with hempty | hw
    · exact Or.inl hempty
    · rw [words_append_cons (endsWord_of_isBlank hc), hcommand] at hw
      rcases List.mem_append.mp hw with hw | hw
      · exact Or.inr (Or.inl (List.mem_singleton.mp hw))
      · rcases hbehind with ⟨-, hbehind⟩ | ⟨-, hbehind⟩
        · rw [← List.append_nil behind] at hw
          exact Or.inl ((mem_words_of_blank_append hbehind hw).elim id List.mem_singleton.mp)
        · exact (exists_of_mem_words_list hnames hbehind hw).imp_right Or.inr

/-! ### The mark of a description -/

lemma mem_words_of_descriptionMark {text : List Char} (h : descriptionMark <:+: text) :
    ['-', '-'] ∈ words text := by
  obtain ⟨front, back, rfl⟩ := h
  have htext : front ++ descriptionMark ++ back = front ++ ' ' :: (['-', '-'] ++ ' ' :: back) := by
    simp [descriptionMark]
  rw [htext, words_append_cons (by decide), words_append_cons (by decide)]
  exact List.mem_append_right _ (List.mem_append_left _ List.mem_cons_self)

/-- **No mark in a written directive**, nor across its end. -/
lemma IsWritten.absent {d : Directive} (hnames : ∀ name ∈ d.rules, IsRuleName name)
    {text : List Char} (htext : IsWritten d text) : ¬ descriptionMark <:+: text ++ [' '] := by
  intro hmark
  have hspace : AreBlank [' '] := List.forall_mem_singleton.mpr (by decide)
  rcases mem_words_of_append_blank hspace (mem_words_of_descriptionMark hmark) with hempty | hword
  · exact nomatch hempty
  · rcases cases_of_mem_words hnames htext hword with hempty | hcommand | ⟨name, hname, hword⟩
    · exact nomatch hempty
    · exact absurd hcommand (by cases d.command <;> decide)
    · exact (hnames name hname).ne_mark (String.toList_inj.mp hword.symm)

/-- A mark that occurs earlier than it is written ends no further than its first blank, since
dashes follow that. -/
lemma isBefore_append {text : List Char} (h : ¬ descriptionMark <:+: text ++ [' '])
    (description : List Char) :
    IsBefore descriptionMark text (text ++ descriptionMark ++ description) := by
  refine .front fun front' back' heq => Nat.le_of_not_lt fun hlt => ?_
  have hearlier : front' ++ descriptionMark <+: text ++ descriptionMark ++ description :=
    ⟨back', heq.symm⟩
  have hwritten : text ++ [' '] <+: text ++ descriptionMark ++ description :=
    ⟨['-', '-', ' '] ++ description, by simp [descriptionMark]⟩
  -- An earlier mark lies within the text and the blank behind it, or its last character is one of
  -- the two dashes.
  by_cases hle : front'.length + 3 ≤ text.length
  · have hwithin : front' ++ descriptionMark <+: text ++ [' '] := by
      refine List.prefix_of_prefix_length_le hearlier hwritten ?_
      simpa [descriptionMark] using hle
    exact h ((List.suffix_append front' descriptionMark).isInfix.trans hwithin.isInfix)
  · have hblank : (text ++ descriptionMark ++ description)[front'.length + 3]? = some ' ' := by
      rw [heq]
      simp [descriptionMark]
    have hdash : (text ++ descriptionMark ++ description)[front'.length + 3]? = some '-' := by
      obtain hplace | hplace : front'.length + 3 = text.length + 1 ∨
          front'.length + 3 = text.length + 2 := by omega
      · rw [hplace]
        simp [descriptionMark]
      · rw [hplace]
        simp [descriptionMark]
    exact absurd (hblank.symm.trans hdash) (by decide)

/-! ### Reading names -/

lemma IsPadded.trim_eq {name : String} (hname : IsRuleName name) {text : List Char}
    (h : IsPadded name text) : trim text = name.toList := by
  obtain ⟨front, back, hfront, hback, rfl⟩ := h
  exact trim_padded hfront hname.isFreeOfBlanks hback

lemma IsPadded.noComma {name : String} (hname : IsRuleName name) {text : List Char}
    (h : IsPadded name text) : ',' ∉ text := by
  obtain ⟨front, back, hfront, hback, rfl⟩ := h
  simp only [List.mem_append, not_or]
  exact ⟨⟨hfront.notMem (by decide), hname.noComma⟩, hback.notMem (by decide)⟩

/-- Blanks at the end of a list are of no account. -/
lemma ruleNames_append_blank {back : List Char} (h : AreBlank back) (list : List Char) :
    ruleNames (list ++ back) = ruleNames list := by
  have hcomma : ',' ∉ back := h.notMem (by decide)
  obtain ⟨front, last, hlist, hmore⟩ := exists_pieces_append hcomma list
  rw [ruleNames, ruleNames, hlist, hmore]
  simp only [List.map_append, List.map_singleton, trim_append_of_areBlank h]

lemma ruleNames_of_areBlank {list : List Char} (h : AreBlank list) : ruleNames list = [] := by
  rw [← List.nil_append list, ruleNames_append_blank h]
  rfl

/-- The parts of a list have no commas, and without blanks they are the names. -/
lemma trim_padded_names {names : List String} (hnames : ∀ name ∈ names, IsRuleName name)
    {padded : List (List Char)} (h : List.Forall₂ IsPadded names padded) :
    (∀ text ∈ padded, ',' ∉ text) ∧ padded.map trim = names.map String.toList := by
  induction h with
  | nil => exact ⟨List.forall_mem_nil _, rfl⟩
  | cons hpiece _ ih =>
    obtain ⟨hname, hnames⟩ := List.forall_mem_cons.mp hnames
    obtain ⟨hcommas, htrim⟩ := ih hnames
    refine ⟨List.forall_mem_cons.mpr ⟨hpiece.noComma hname, hcommas⟩, ?_⟩
    rw [List.map_cons, List.map_cons, hpiece.trim_eq hname, htrim]

/-- **The names of a list.** -/
lemma ruleNames_of_isNameList {names : List String} (hne : names ≠ [])
    (hnames : ∀ name ∈ names, IsRuleName name) {list : List Char} (h : IsNameList names list) :
    ruleNames list = names := by
  obtain ⟨padded, hpadded, rfl⟩ := h
  obtain ⟨hcommas, htrim⟩ := trim_padded_names hnames hpadded
  have hsome : padded ≠ [] := by
    rintro rfl
    exact hne (List.forall₂_nil_right_iff.mp hpadded)
  have hkept : (names.map String.toList).filter (!·.isEmpty) = names.map String.toList := by
    refine List.filter_eq_self.mpr fun text htext => ?_
    obtain ⟨name, hname, rfl⟩ := List.mem_map.mp htext
    simpa using (hnames name hname).ne_empty
  rw [ruleNames, pieces_intercalate hsome hcommas, htrim, hkept, List.map_map]
  exact (List.map_congr_left fun name _ => String.ofList_toList).trans (List.map_id names)

/-! ### Reading directives -/

/-- What is found behind the first word: nothing, or what follows the blank behind it, up to the
blanks at the end of the text. -/
lemma exists_breakAt_trim {word behind text : List Char} (h : BeginsWith word behind text) :
    ∃ found back, AreBlank back ∧ breakAt isBlank (trim text) = (word, found) ∧
      behind = found.getD [] ++ back := by
  cases h with
  | alone hblank hword =>
    have htrim := trim_padded hblank hword areBlank_nil
    rw [List.append_nil] at htrim
    exact ⟨none, [], areBlank_nil, by rw [htrim, breakAt_of_forall hword], rfl⟩
  | @followed front behind c hblank hword hne hc =>
    -- nothing but blanks behind the word is taken away with them
    by_cases hbehind : AreBlank behind
    · have hback : AreBlank (c :: behind) := List.forall_mem_cons.mpr ⟨hc, hbehind⟩
      exact ⟨none, behind, hbehind,
        by rw [trim_padded hblank hword hback, breakAt_of_forall hword], rfl⟩
    · obtain ⟨back, hback, heq⟩ := exists_eq_trimEnd_append behind
      have htrim : trim (front ++ word ++ c :: behind) = word ++ c :: trimEnd behind := by
        have hmore : ¬ AreBlank (c :: behind) := fun h => hbehind (List.forall_mem_cons.mp h).2
        rw [trim, List.append_assoc, trimStart_append hblank, trimStart_word_append hword hne,
          trimEnd_append hmore, ← List.singleton_append, trimEnd_append hbehind]
        rfl
      exact ⟨some (trimEnd behind), back, hback, by rw [htrim, breakAt_append hword hc], heq⟩

lemma exists_beginsWith (text : List Char) : ∃ word behind, BeginsWith word behind text := by
  induction text with
  | nil => exact ⟨[], [], .alone areBlank_nil (List.forall_mem_nil _)⟩
  | cons c text ih =>
    cases hc : isBlank c with
    | true =>
      obtain ⟨word, behind, hword⟩ := ih
      cases hword with
      | alone hblank hword =>
        exact ⟨word, [], .alone (List.forall_mem_cons.mpr ⟨hc, hblank⟩) hword⟩
      | followed hblank hword hne hbehind =>
        exact ⟨word, behind, .followed (List.forall_mem_cons.mpr ⟨hc, hblank⟩) hword hne hbehind⟩
    | false =>
      rcases isFreeOfBlanks_or_exists text with hfree | ⟨word, b, behind, hword, hb, rfl⟩
      · exact ⟨c :: text, [], .alone areBlank_nil (List.forall_mem_cons.mpr ⟨hc, hfree⟩)⟩
      · exact ⟨c :: word, behind, .followed areBlank_nil (List.forall_mem_cons.mpr ⟨hc, hword⟩)
          (List.cons_ne_nil c word) hb⟩

/-- **What a text is read as.**  Its first word in front of the mark is that of the command. -/
lemma ofText?_of_beginsWith {text front word behind : List Char}
    (hfront : IsBefore descriptionMark front text) (hword : BeginsWith word behind front) :
    ofText? text = (Command.ofWord? word).map fun command => ⟨command, ruleNames behind⟩ := by
  obtain ⟨found, back, hback, hbreak, rfl⟩ := exists_breakAt_trim hword
  rw [ofText?, hfront.before_eq (List.cons_ne_nil _ _), hbreak, ruleNames_append_blank hback]

/-- **A written directive is read**, in front of whatever follows the mark. -/
lemma IsWritten.ofText?_eq {d : Directive} (hnames : ∀ name ∈ d.rules, IsRuleName name)
    {front text : List Char} (hwritten : IsWritten d front)
    (hfront : IsBefore descriptionMark front text) : ofText? text = some d := by
  obtain ⟨behind, hbegins, hbehind⟩ := hwritten
  have hrules : ruleNames behind = d.rules := by
    rcases hbehind with ⟨hrules, hblank⟩ | ⟨hne, hlist⟩
    · rw [hrules, ruleNames_of_areBlank hblank]
    · exact ruleNames_of_isNameList hne hnames hlist
  rw [ofText?_of_beginsWith hfront hbegins, (Command.ofWord?_eq_some_iff _ d.command).mpr rfl,
    Option.map_some, hrules]

/-- **Directives are read back as written.**  A written directive is read as itself, with or without
a description behind it, whatever that says.  And any text has a first word in front of the first
mark, and is no directive exactly if that is none of the words of commands. -/
theorem ofText?_written :
    (∀ (d : Directive) (text : List Char), (∀ name ∈ d.rules, IsRuleName name) → IsWritten d text →
      ofText? text = some d ∧
        ∀ description, ofText? (text ++ descriptionMark ++ description) = some d) ∧
    ∀ text : List Char,
      (∃ front word behind, IsBefore descriptionMark front text ∧ BeginsWith word behind front) ∧
      ∀ front word behind, IsBefore descriptionMark front text → BeginsWith word behind front →
        (ofText? text = none ↔ ∀ command : Command, command.word.toList ≠ word) := by
  refine ⟨?_, fun text => ⟨?_, ?_⟩⟩
  · intro d text hnames hwritten
    have habsent := hwritten.absent hnames
    have hwhole : IsBefore descriptionMark text text :=
      .whole fun hmark => habsent (hmark.trans (List.prefix_append text [' ']).isInfix)
    exact ⟨hwritten.ofText?_eq hnames hwhole,
      fun description => hwritten.ofText?_eq hnames (isBefore_append habsent description)⟩
  · obtain ⟨word, behind, hword⟩ := exists_beginsWith (before descriptionMark text)
    exact ⟨_, word, behind, isBefore_before (List.cons_ne_nil _ _) text, hword⟩
  · intro front word behind hfront hword
    rw [ofText?_of_beginsWith hfront hword, Option.map_eq_none_iff, Command.ofWord?_eq_none_iff]

/-- A description that looks like a directive, behind names one of which begins like the mark; and a
word that only begins like that of a command. -/
theorem ofText?_written_twoNames :
    (∀ name ∈ ["--x", "a"], IsRuleName name) ∧
      IsWritten ⟨.enable, ["--x", "a"]⟩ "\tstylelint-enable --x ,a\u00a0".toList ∧
      ofText? ("\tstylelint-enable --x ,a\u00a0".toList ++ descriptionMark ++
        "stylelint-disable b".toList) = some ⟨.enable, ["--x", "a"]⟩ ∧
      IsBefore descriptionMark " stylelint-disabled".toList
        (" stylelint-disabled".toList ++ descriptionMark ++ "stylelint-enable".toList) ∧
      BeginsWith "stylelint-disabled".toList [] " stylelint-disabled".toList ∧
      ofText? (" stylelint-disabled".toList ++ descriptionMark ++ "stylelint-enable".toList) =
        none := by
  have hnames : ∀ name ∈ ["--x", "a"], IsRuleName name := by
    refine List.forall_mem_cons.mpr ⟨?_, List.forall_mem_singleton.mpr ?_⟩
    · exact ⟨by decide, by decide, by decide, by decide⟩
    · exact ⟨by decide, by decide, by decide, by decide⟩
  have hlist : IsNameList ["--x", "a"] "--x ,a\u00a0".toList := by
    refine ⟨["--x ".toList, "a\u00a0".toList], .cons ?_ (.cons ?_ .nil), rfl⟩
    · exact ⟨[], [' '], areBlank_nil, List.forall_mem_singleton.mpr (by decide), rfl⟩
    · exact ⟨[], ['\u00a0'], areBlank_nil, List.forall_mem_singleton.mpr (by decide), rfl⟩
  have hbegins : BeginsWith "stylelint-enable".toList "--x ,a\u00a0".toList
      (['\t'] ++ "stylelint-enable".toList ++ ' ' :: "--x ,a\u00a0".toList) :=
    .followed (List.forall_mem_singleton.mpr (by decide)) Command.enable.isFreeOfBlanks_word
      (by decide) (by decide)
  have hwritten : IsWritten ⟨.enable, ["--x", "a"]⟩ "\tstylelint-enable --x ,a\u00a0".toList :=
    ⟨_, hbegins, Or.inr ⟨List.cons_ne_nil _ _, hlist⟩⟩
  have habsent : ¬ descriptionMark <:+: " stylelint-disabled".toList ++ [' '] := fun hmark =>
    absurd (mem_words_of_descriptionMark hmark) (by decide)
  have hfront : IsBefore descriptionMark " stylelint-disabled".toList
      (" stylelint-disabled".toList ++ descriptionMark ++ "stylelint-enable".toList) :=
    isBefore_append habsent _
  have hword : BeginsWith "stylelint-disabled".toList [] ([' '] ++ "stylelint-disabled".toList) :=
    .alone (List.forall_mem_singleton.mpr (by decide)) (by decide)
  exact ⟨hnames, hwritten, (ofText?_written.1 _ _ hnames hwritten).2 _, hfront, hword,
    ((ofText?_written.2 _).2 _ _ _ hfront hword).mpr fun command => by cases command <;> decide⟩

end Directive

end SheetLint.Stylesheet
