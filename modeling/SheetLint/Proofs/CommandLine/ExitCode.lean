import SheetLint.Program
import SheetLint.Proofs.Lint.Flags

/-!
# The exit code

The exit code tells how a program has ended: 0 when its run has results without an error, 2 when one
of the results has an error, and 1 when there are no results, be it that the options file, the
patterns, an ignore file, an input file, the standard input or the engine is to blame:
`programReading_code`.  Without results there is nothing on the standard output either.

Whether a result has an error is read off its flag.  Stored results have the flags that they were
stored with, so the caches on the disk must have the right ones, as they do if only programs have
written them (`cachesAreFlagged_programReading`).

Arguments that are refused end the program with 2 as well, although nothing has been linted then:
`program_unknownArgument`.  A request for the usage text or the version is neither a run nor a
refusal, and is left out.
-/

namespace SheetLint

/-- The answer of the run that a command line asks for.  `input` is what reading the standard input
gives. -/
def CommandLine.answer (c : CommandLine) (d : Disk) (input : Except SystemError String) :
    Except RunError Outcome := do
  (run Engine.structural d (← c.runOptions d input)).answer

/-- **Completed runs.**  The arguments are accepted, and the run that they ask for ends with the
outcome. -/
def Completes (d : Disk) (arguments : List String) (input : Except SystemError String)
    (outcome : Outcome) : Prop :=
  ∃ line, CommandLine.read arguments = .ok line ∧ line.answer d input = .ok outcome

/-- The arguments are refused.  A request for the usage text or the version is not. -/
def AreRefused (arguments : List String) : Prop :=
  ∃ fault, CommandLine.read arguments = .error fault ∧ fault ≠ .helpRequest ∧
    fault ≠ .versionRequest

/-- The arguments ask for the usage text or the version. -/
def AreRequest (arguments : List String) : Prop :=
  CommandLine.read arguments = .error .helpRequest ∨
    CommandLine.read arguments = .error .versionRequest

variable {d : Disk} {arguments : List String} {input : Except SystemError String}

lemma programReading_of_areRefused (h : AreRefused arguments) (d : Disk)
    (input : Except SystemError String) :
    (programReading d arguments input).code = 2 ∧
      (programReading d arguments input).output = "" := by
  obtain ⟨fault, hread, hhelp, hversion⟩ := h
  simp only [programReading, hread]
  cases fault with
  | helpRequest => exact absurd rfl hhelp
  | versionRequest => exact absurd rfl hversion
  | unknownArgument | invalidValue | argumentConflict | tooManyValues => exact ⟨rfl, rfl⟩

lemma programReading_of_answer_error {line : CommandLine}
    (hread : CommandLine.read arguments = .ok line) {error : RunError}
    (h : line.answer d input = .error error) :
    (programReading d arguments input).code = 1 ∧
      (programReading d arguments input).output = "" := by
  unfold CommandLine.answer at h
  simp only [programReading, hread]
  cases hoptions : line.runOptions d input with
  | error error => exact ⟨rfl, rfl⟩
  | ok o =>
    rw [hoptions] at h
    have hanswer : (run Engine.structural d o).answer = .error error := h
    simp only [Exit.ofRun, hanswer]
    exact ⟨rfl, rfl⟩

lemma programReading_of_answer_ok {line : CommandLine}
    (hread : CommandLine.read arguments = .ok line) {outcome : Outcome}
    (h : line.answer d input = .ok outcome) :
    (programReading d arguments input).code = if outcome.errored then 2 else 0 := by
  obtain ⟨o, hoptions, hanswer⟩ := exists_of_bind_eq_ok h
  simp only [programReading, hread, hoptions, Exit.ofRun, hanswer]

lemma CommandLine.errored_iff_of_answer (h : d.CachesAreFlagged) {line : CommandLine}
    {outcome : Outcome} (hanswer : line.answer d input = .ok outcome) :
    outcome.errored = true ↔ ∃ r ∈ outcome.results, r.HasError := by
  obtain ⟨o, -, hrun⟩ := exists_of_bind_eq_ok hanswer
  exact errored_iff_of_run (fun _ => h.finds) hrun

/-- A run is completed with the answer of the command line. -/
lemma completes_iff {line : CommandLine} (hread : CommandLine.read arguments = .ok line)
    (outcome : Outcome) :
    Completes d arguments input outcome ↔ line.answer d input = .ok outcome := by
  simp [Completes, hread]

/-- **The exit code tells outcomes apart**, as long as the arguments are not refused.  It is 2 if
they are or if a run is completed and one of its results has an error, 0 if a run is completed
without that, and 1 if there are no results for any other reason.  Without results there is nothing
on the standard output. -/
theorem programReading_code (h : d.CachesAreFlagged) (hrequest : ¬ AreRequest arguments)
    (input : Except SystemError String) :
    ((programReading d arguments input).code = 2 ↔ AreRefused arguments ∨
      ∃ outcome, Completes d arguments input outcome ∧ ∃ r ∈ outcome.results, r.HasError) ∧
    ((programReading d arguments input).code = 0 ↔
      ∃ outcome, Completes d arguments input outcome ∧ ∀ r ∈ outcome.results, ¬ r.HasError) ∧
    ((programReading d arguments input).code = 1 ↔
      ¬ AreRefused arguments ∧ ∀ outcome, ¬ Completes d arguments input outcome) ∧
    ((∀ outcome, ¬ Completes d arguments input outcome) →
      (programReading d arguments input).output = "") := by
  cases hread : CommandLine.read arguments with
  | error fault =>
    have hrefused : AreRefused arguments := by
      refine ⟨fault, hread, ?_, ?_⟩ <;> rintro rfl
      · exact hrequest (Or.inl hread)
      · exact hrequest (Or.inr hread)
    obtain ⟨hcode, houtput⟩ := programReading_of_areRefused hrefused d input
    have hnone (outcome : Outcome) : ¬ Completes d arguments input outcome := by
      simp [Completes, hread]
    simp [hrefused, hnone, hcode, houtput]
  | ok line =>
    have haccepted : ¬ AreRefused arguments := by
      simp [AreRefused, hread]
    -- The arguments are accepted, so the answer of their run decides.
    simp only [completes_iff hread, haccepted, false_or, not_false_iff, true_and]
    cases hanswer : line.answer d input with
    | error error =>
      obtain ⟨hcode, houtput⟩ := programReading_of_answer_error hread hanswer
      simp [hcode, houtput]
    | ok outcome =>
      have hcode := programReading_of_answer_ok hread hanswer
      have herrored := CommandLine.errored_iff_of_answer h hanswer
      have hclean : (∀ r ∈ outcome.results, ¬ r.HasError) ↔ outcome.errored = false := by
        rw [← Bool.not_eq_true, herrored]
        simp
      simp only [Except.ok.injEq, exists_eq_left', ← herrored, hclean, hcode]
      cases outcome.errored <;> simp

/-- A program leaves the caches with the right flags. -/
lemma cachesAreFlagged_programReading (h : d.CachesAreFlagged) (arguments : List String)
    (input : Except SystemError String) :
    (programReading d arguments input).disk.CachesAreFlagged := by
  unfold programReading
  split
  · next fault _ => cases fault <;> exact h
  · split
    · exact h
    · next o _ =>
      have hrun := cachesAreFlagged_run h Engine.structural o
      unfold Exit.ofRun
      split <;> exact hrun

lemma cachesAreFlagged_emptyDir : (⟨.emptyDir, []⟩ : Disk).CachesAreFlagged :=
  Disk.Node.AllContents.emptyDir

/-- A source without findings ends the program with 0. -/
theorem programReading_code_clean :
    (programReading ⟨.emptyDir, []⟩ ["--code", "a\x7b\x7d"] (.error .notText)).code = 0 ∧
      ∃ outcome, Completes ⟨.emptyDir, []⟩ ["--code", "a\x7b\x7d"] (.error .notText) outcome ∧
        ∀ r ∈ outcome.results, ¬ r.HasError := by
  have hrequest : ¬ AreRequest ["--code", "a\x7b\x7d"] := by
    have hread : CommandLine.read ["--code", "a\x7b\x7d"] =
        .ok { settings := [(.code, "a\x7b\x7d")] } := eq_ok_of_toOption (by decide +kernel)
    simp [AreRequest, hread]
  have hcode :
      (programReading ⟨.emptyDir, []⟩ ["--code", "a\x7b\x7d"] (.error .notText)).code = 0 := by
    decide +kernel
  exact ⟨hcode, (programReading_code cachesAreFlagged_emptyDir hrequest _).2.1.mp hcode⟩

/-- **An unknown argument ends the program like a failing stylesheet.**  It is refused, so that
nothing is linted. -/
theorem program_unknownArgument :
    AreRefused ["--bogus"] ∧ (∀ outcome, ¬ Completes ⟨.emptyDir, []⟩ ["--bogus"] (.ok "") outcome) ∧
      (program ⟨.emptyDir, []⟩ ["--bogus"] "").code = 2 := by
  have hread : CommandLine.read ["--bogus"] = .error .unknownArgument := by
    decide +kernel
  refine ⟨⟨_, hread, nofun, nofun⟩, ?_, ?_⟩
  · simp [Completes, hread]
  · decide +kernel

end SheetLint
