import SheetLint.Program
import SheetLint.Proofs.Except

/-!
# The input that a command line asks for

Files on the command line come first, then a source there, then what the options file names, and the
standard input if that names nothing.  The first two take the place of anything in the options file,
so that nothing there can be one input too many: `runOptions_input`.  Files and a source on one
command line are refused (`files_eq_nil_of_read`), so there is no more to say about both.

What the options file names is judged twice.  The standard input is read if it has neither files nor
a source, and a run is refused if none of them counts, which an empty pattern does not.  So an
options file with an empty pattern and no source is refused instead of reading the standard input:
`program_emptyPattern`.

`CommandLine.Takes` says that the input is decided without the standard input: whatever reading it
gives, the options of the run are the same.
-/

namespace SheetLint

namespace CommandLine

variable {c : CommandLine} {d : Disk} {o : RunOptions}

lemma files_eq_nil_of_read {arguments : List String} (h : read arguments = .ok c)
    (hcode : c.value? .code ≠ none) : c.files = [] := by
  unfold read at h
  obtain ⟨r, -, h⟩ := exists_of_bind_eq_ok h
  obtain ⟨line, -, h⟩ := exists_of_bind_eq_ok h
  split at h
  · exact nomatch h
  · next hboth =>
    cases h
    by_contra hfiles
    exact hboth ⟨Option.isSome_iff_ne_none.mpr hcode, hfiles⟩

/-! ### The options with what the command line says -/

lemma applyInput_of_files (hfiles : c.files ≠ []) (hcode : c.value? .code = none) (o : RunOptions) :
    c.applyInput o = { o with files := some (.many c.files), code := none } := by
  simp only [applyInput, if_neg hfiles, hcode]

lemma applyInput_of_code {text : String} (hcode : c.value? .code = some text) (o : RunOptions) :
    c.applyInput o = { o with files := none, code := some text } := by
  simp only [applyInput, hcode]
  split <;> rfl

lemma applyInput_of_neither (hfiles : c.files = []) (hcode : c.value? .code = none)
    (o : RunOptions) : c.applyInput o = o := by
  simp only [applyInput, if_pos hfiles, hcode]

lemma runOptions_of_fileOptions (h : c.fileOptions d = .ok o)
    (input : Except SystemError String) :
    c.runOptions d input = ((c.apply o).orRead input).mapError .system := by
  rw [runOptions, options, h]
  rfl

/-- **An input without the standard input.**  Whatever reading the standard input gives, the options
are the same, and this is what they say about the input. -/
def Takes (c : CommandLine) (d : Disk) (chosen : Except ConfigError Input) : Prop :=
  ∃ o, o.input = chosen ∧ ∀ input, c.runOptions d input = .ok o

/-- The standard input is not read if the options have files or a source. -/
lemma takes_of_applyInput (h : c.fileOptions d = .ok o)
    (hnamed : (c.applyInput o).files ≠ none ∨ (c.applyInput o).code ≠ none) :
    c.Takes d (c.apply o).input := by
  refine ⟨c.apply o, rfl, fun input => ?_⟩
  have hnone : ¬ ((c.apply o).files.isNone = true ∧ (c.apply o).code.isNone = true) := by
    rintro ⟨hfiles, hcode⟩
    exact hnamed.elim (· (Option.isNone_iff_eq_none.mp hfiles))
      (· (Option.isNone_iff_eq_none.mp hcode))
  rw [runOptions_of_fileOptions h, RunOptions.orRead, if_neg hnone]
  rfl

lemma runOptions_of_neither (h : c.fileOptions d = .ok o) (happly : c.applyInput o = o)
    (hfiles : o.files = none) (hcode : o.code = none) (input : Except SystemError String) :
    c.runOptions d input =
      (input.mapError .system).map fun text => { c.apply o with code := some text } := by
  have hneither : (c.apply o).files.isNone = true ∧ (c.apply o).code.isNone = true := by
    show (c.applyInput o).files.isNone = true ∧ (c.applyInput o).code.isNone = true
    rw [happly, hfiles, hcode]
    exact ⟨rfl, rfl⟩
  rw [runOptions_of_fileOptions h, RunOptions.orRead, if_pos hneither]
  cases input <;> rfl

lemma input_apply (c : CommandLine) (o : RunOptions) :
    (c.apply o).input =
      match (c.applyInput o).givenFiles, (c.applyInput o).code with
      | some files, none => .ok (.files files.toList)
      | none, some text => .ok (.code text ((c.value? .codeName).or o.codeName))
      | _, _ => .error .inputChoice := rfl

/-- A run without an input that counts, or with two, is refused. -/
lemma Takes.programReading_eq {arguments : List String} (hread : read arguments = .ok c)
    {error : ConfigError} (h : c.Takes d (.error error)) (input : Except SystemError String) :
    programReading d arguments input = Exit.ofRunError d (.config error) := by
  obtain ⟨options, hinput, hoptions⟩ := h
  have hcheck : options.check = .error error := by
    rw [RunOptions.check, hinput]
    rfl
  have hrun : run Engine.structural d options = ⟨.error (.config error), d, []⟩ := by
    rw [run, hcheck]
  simp only [programReading, hread, hoptions, hrun]
  rfl

end CommandLine

/-- **The input of a run.**  Files on the command line are the input, else a source there, whatever
the options file says.  Else, if the options file names one input that counts, that is the input and
the standard input is not read; if it names two, the run is refused.  If it has neither files nor a
source, the standard input is the source.  It is not read if there is nothing but an empty pattern:
that does not count, and the run is refused. -/
theorem runOptions_input {d : Disk} {arguments : List String} {line : CommandLine}
    (hread : CommandLine.read arguments = .ok line) {o : RunOptions}
    (hfile : line.fileOptions d = .ok o) :
    (line.files ≠ [] → line.Takes d (.ok (.files line.files))) ∧
    (∀ text, line.value? .code = some text →
      line.Takes d (.ok (.code text ((line.value? .codeName).or o.codeName)))) ∧
    (line.files = [] → line.value? .code = none →
      (∀ patterns, o.givenFiles = some patterns → o.code = none →
        line.Takes d (.ok (.files patterns.toList))) ∧
      (∀ text, o.givenFiles = none → o.code = some text →
        line.Takes d (.ok (.code text ((line.value? .codeName).or o.codeName)))) ∧
      (∀ patterns text, o.givenFiles = some patterns → o.code = some text →
        ∀ input, programReading d arguments input = Exit.ofRunError d (.config .inputChoice)) ∧
      (o.files = none → o.code = none →
        (∀ text, ∃ options, line.runOptions d (.ok text) = .ok options ∧
          options.input = .ok (.code text ((line.value? .codeName).or o.codeName))) ∧
        ∀ error, programReading d arguments (.error error) = Exit.ofRunError d (.system error)) ∧
      (o.files = some (.one "") → o.code = none →
        ∀ input, programReading d arguments input = Exit.ofRunError d (.config .inputChoice))) := by
  refine ⟨fun hfiles => ?_, fun text hcode => ?_, fun hfiles hcode => ?_⟩
  · have hcode : line.value? .code = none := by
      by_contra hcode
      exact hfiles (CommandLine.files_eq_nil_of_read hread hcode)
    have happly := CommandLine.applyInput_of_files hfiles hcode o
    have htakes := CommandLine.takes_of_applyInput hfile (Or.inl (by simp [happly]))
    rwa [CommandLine.input_apply, happly] at htakes
  · have happly := CommandLine.applyInput_of_code hcode o
    have htakes := CommandLine.takes_of_applyInput hfile (Or.inr (by simp [happly]))
    rwa [CommandLine.input_apply, happly] at htakes
  -- From here on the command line has no input, and the options file is left as it is.
  have happly := CommandLine.applyInput_of_neither hfiles hcode o
  have htakes (hnamed : o.files ≠ none ∨ o.code ≠ none) :=
    CommandLine.takes_of_applyInput hfile (happly.symm ▸ hnamed)
  rw [CommandLine.input_apply, happly] at htakes
  have hgiven {patterns : FilePatterns} (h : o.givenFiles = some patterns) : o.files ≠ none :=
    fun hnone => by simp [RunOptions.givenFiles, hnone] at h
  refine ⟨fun patterns hpatterns hnone => ?_, fun text hnone htext => ?_,
    fun patterns text hpatterns htext => ?_, fun hnone hnocode => ?_, fun hempty hnone => ?_⟩
  · have htakes := htakes (Or.inl (hgiven hpatterns))
    rwa [hpatterns, hnone] at htakes
  · have htakes := htakes (Or.inr (by simp [htext]))
    rwa [hnone, htext] at htakes
  · have htakes := htakes (Or.inl (hgiven hpatterns))
    rw [hpatterns, htext] at htakes
    exact htakes.programReading_eq hread
  · have hread' := CommandLine.runOptions_of_neither hfile happly hnone hnocode
    refine ⟨fun text => ⟨_, hread' (.ok text), ?_⟩, fun error => ?_⟩
    -- neither files nor a source, so the standard input becomes the source
    · have hnotGiven : RunOptions.givenFiles { line.apply o with code := some text } = none := by
        show (line.applyInput o).givenFiles = none
        rw [happly, RunOptions.givenFiles, hnone]
        rfl
      simp only [RunOptions.input, hnotGiven]
      rfl
    · simp only [programReading, hread, hread' (.error error)]
      rfl
  · have htakes := htakes (Or.inl (by simp [hempty]))
    -- the empty pattern keeps the standard input from being read, and then does not count
    have hnotGiven : o.givenFiles = none := by
      rw [RunOptions.givenFiles, hempty]
      decide
    rw [hnotGiven, hnone] at htakes
    exact htakes.programReading_eq hread

/-- A directory with an options file. -/
def optionsDisk (text : String) : Disk := ⟨.dir [("o", .file text.toUTF8)], []⟩

/-- A pattern in the options file is the input, unless the command line has a source. -/
theorem runOptions_input_onePattern :
    (∃ line, CommandLine.read ["--options", "o"] = .ok line ∧
      line.Takes (optionsDisk "\x7bfiles:'a'\x7d") (.ok (.files ["a"]))) ∧
    ∃ line, CommandLine.read ["--options", "o", "--code", "b\x7b\x7d"] = .ok line ∧
      line.Takes (optionsDisk "\x7bfiles:'a'\x7d") (.ok (.code "b\x7b\x7d" none)) := by
  have hread : CommandLine.read ["--options", "o"] =
      .ok { settings := [(.optionsFile, "o")] } := eq_ok_of_toOption (by decide +kernel)
  have hread' : CommandLine.read ["--options", "o", "--code", "b\x7b\x7d"] =
      .ok { settings := [(.optionsFile, "o"), (.code, "b\x7b\x7d")] } :=
    eq_ok_of_toOption (by decide +kernel)
  have hfile : (RunOptions.ofFile (optionsDisk "\x7bfiles:'a'\x7d") "o").toOption.any (fun o =>
      o.files == some (.one "a") && o.code.isNone && o.codeName.isNone) = true := by
    decide +kernel
  obtain ⟨o, hoptions, ho⟩ := (Option.any_eq_true _ _).mp hfile
  simp only [Bool.and_eq_true, beq_iff_eq, Option.isNone_iff_eq_none] at ho
  obtain ⟨⟨hfiles, hcode⟩, hname⟩ := ho
  have hgiven : o.givenFiles = some (.one "a") := by
    rw [RunOptions.givenFiles, hfiles]
    decide
  refine ⟨⟨_, hread, ?_⟩, _, hread', ?_⟩
  · exact ((runOptions_input hread (eq_ok_of_toOption hoptions)).2.2 rfl rfl).1 _ hgiven hcode
  · have htakes := (runOptions_input hread' (eq_ok_of_toOption hoptions)).2.1 _ rfl
    rwa [hname] at htakes

/-- **An empty pattern keeps the standard input from being read.**  The options file has no input
that counts, and yet the run is refused. -/
theorem program_emptyPattern :
    (RunOptions.ofFile (optionsDisk "\x7bfiles:''\x7d") "o").toOption.any (fun o =>
      o.givenFiles.isNone && o.code.isNone) = true ∧
    (program (optionsDisk "\x7bfiles:''\x7d") ["--options", "o"] "a\x7b\x7d").code = 1 ∧
    (program (optionsDisk "\x7bfiles:''\x7d") ["--options", "o"] "a\x7b\x7d").output = "" := by
  decide +kernel

end SheetLint
