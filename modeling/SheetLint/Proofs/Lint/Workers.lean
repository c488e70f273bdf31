import Mathlib.Algebra.BigOperators.Fin
import Mathlib.Logic.Relation
import SheetLint.Engine.Structural
import SheetLint.Proofs.Except
import SheetLint.Proofs.Lint.Alone

/-!
# Files linted side by side

When files are linted side by side, each one has a worker, and all workers share one cache.  A
worker reads and hashes its file, asks the cache, hands the source to the engine if the cache has no
result, and records what the engine gives.  Each of these is one step, and between two steps of a
worker the others can do anything.

`Stage.step` is one step of a worker, `Crew.Step` a step of any worker.  `Stage.Moves` lists all
that a step can be (`Stage.step_eq_some_iff`).  A worker that is left to itself comes to what the
lint of its file comes to, at whatever stage it is (`Moves.finish_eq`); at the first stage this ties
the steps to `lintFile`.

The order of the steps does not matter, since a worker sees of the cache only the entry of its own
file, which nobody else writes.  The invariant `Crew.Mirrors` says so: beside every worker there is
one that works alone on the cache as it was found, and both are at the same stage.  What has been
handed to the engine is compared as a multiset, as the order depends on the interleaving.

Every interleaving comes to an end (`exists_isFinished`), and `finished_eq_lintAlone` is what all of
them come to.  If any file is fatal the answer is an error, that of whichever fatal file; the other
files are linted all the same.
-/

namespace SheetLint

/-- How far the worker of a file has come. -/
inductive Stage where
  | waiting
  /-- The file has been read and hashed. -/
  | hashed (text digest : String)
  /-- The cache has no result. -/
  | missed (text digest : String)
  /-- The engine has given a result. -/
  | answered (digest : String) (result : SourceResult)
  | done (answer : Except RunError SourceResult)

namespace Stage

section

variable (engine : Engine) (settings : EngineSettings) (d : Disk) (path : String)

/-- One step of the worker of a file, unless it is done. -/
def step : Stage → LintState → Option (Stage × LintState)
  | .waiting, s =>
    match d.readText path with
    | .ok text => some (.hashed text (Digest.ofString text), s)
    | .error error => some (.done (.error (.inputFile path error)), s)
  | .hashed text digest, s =>
    match s.cache.check path digest with
    | some result => some (.done (.ok result), s)
    | none => some (.missed text digest, s)
  | .missed text digest, s =>
    let source : Source := ⟨text, some path⟩
    match lintSource engine settings source with
    | .ok result => some (.answered digest result, ⟨s.cache, s.asked ++ [source]⟩)
    | .error error => some (.done (.error error), ⟨s.cache, s.asked ++ [source]⟩)
  | .answered digest result, s =>
    some (.done (.ok result), ⟨s.cache.record path digest result, s.asked⟩)
  | .done _, _ => none

/-- What a worker comes to when the cache has no result. -/
def finishMissed (text digest : String) (s : LintState) :
    Except RunError SourceResult × LintState :=
  let source : Source := ⟨text, some path⟩
  match lintSource engine settings source with
  | .ok result => (.ok result, ⟨s.cache.record path digest result, s.asked ++ [source]⟩)
  | .error error => (.error error, ⟨s.cache, s.asked ++ [source]⟩)

/-- What a worker comes to from a stage on when nobody else works. -/
def finish : Stage → LintState → Except RunError SourceResult × LintState
  | .waiting, s => lintFile engine settings d path s
  | .hashed text digest, s =>
    match s.cache.check path digest with
    | some result => (.ok result, s)
    | none => finishMissed engine settings path text digest s
  | .missed text digest, s => finishMissed engine settings path text digest s
  | .answered digest result, s => (.ok result, ⟨s.cache.record path digest result, s.asked⟩)
  | .done answer, s => (answer, s)

end

variable {engine : Engine} {settings : EngineSettings} {d : Disk} {path : String}
  {stage next : Stage} {s s' t : LintState}

variable (engine settings d path) in
/-- The worker of a file gets from one stage to the next by a step. -/
inductive Moves : Stage → LintState → Stage → LintState → Prop where
  | read {text : String} (s : LintState) (h : d.readText path = .ok text) :
    Moves .waiting s (.hashed text (Digest.ofString text)) s
  | unreadable {error : SystemError} (s : LintState) (h : d.readText path = .error error) :
    Moves .waiting s (.done (.error (.inputFile path error))) s
  | hit {s : LintState} (text : String) {digest : String} {result : SourceResult}
    (h : s.cache.check path digest = some result) :
    Moves (.hashed text digest) s (.done (.ok result)) s
  | miss {s : LintState} (text : String) {digest : String}
    (h : s.cache.check path digest = none) :
    Moves (.hashed text digest) s (.missed text digest) s
  | answer {text : String} (digest : String) {result : SourceResult} (s : LintState)
    (h : lintSource engine settings ⟨text, some path⟩ = .ok result) :
    Moves (.missed text digest) s (.answered digest result)
      ⟨s.cache, s.asked ++ [⟨text, some path⟩]⟩
  | fail {text : String} (digest : String) {error : RunError} (s : LintState)
    (h : lintSource engine settings ⟨text, some path⟩ = .error error) :
    Moves (.missed text digest) s (.done (.error error)) ⟨s.cache, s.asked ++ [⟨text, some path⟩]⟩
  | record (digest : String) (result : SourceResult) (s : LintState) :
    Moves (.answered digest result) s (.done (.ok result))
      ⟨s.cache.record path digest result, s.asked⟩

/-- **All that a step can be.**  What follows about steps follows from this. -/
lemma step_eq_some_iff :
    stage.step engine settings d path s = some (next, s') ↔
      Moves engine settings d path stage s next s' := by
  constructor
  · intro h
    cases stage with
    | waiting =>
      simp only [step] at h
      split at h
      · next hread => cases h; exact .read s hread
      · next hread => cases h; exact .unreadable s hread
    | hashed text digest =>
      simp only [step] at h
      split at h
      · next hcheck => cases h; exact .hit text hcheck
      · next hcheck => cases h; exact .miss text hcheck
    | missed text digest =>
      simp only [step] at h
      split at h
      · next hresult => cases h; exact .answer digest s hresult
      · next herror => cases h; exact .fail digest s herror
    | answered digest result => cases h; exact .record digest result s
    | done answer => cases h
  · intro h
    cases h with
    | read _ h | unreadable _ h | hit _ h | miss _ h | answer _ _ h | fail _ _ h =>
      simp only [step, h]
    | record => rfl

/-- **The steps of a worker are the lint of its file.**  A step changes nothing about what the
worker comes to. -/
lemma Moves.finish_eq (h : Moves engine settings d path stage s next s') :
    next.finish engine settings d path s' = stage.finish engine settings d path s := by
  cases h with
  | read s h =>
    simp only [finish, lintFile, h]
    rfl
  | unreadable s h => simp only [finish, lintFile, h]
  | hit text h | miss text h => simp only [finish, h]
  | answer digest s h | fail digest s h => simp only [finish, finishMissed, h]
  | record => rfl

/-- **A worker sees only its own file.**  Where two caches agree about that file, it takes the same
step with both, hands over the same sources, and leaves them in agreement. -/
lemma Moves.exists_of_agreesAt (hagrees : t.cache.AgreesAt s.cache path)
    (h : Moves engine settings d path stage s next s') :
    ∃ t' calls, Moves engine settings d path stage t next t' ∧
      t'.cache.AgreesAt s'.cache path ∧ s'.asked = s.asked ++ calls ∧
      t'.asked = t.asked ++ calls := by
  have hnone (asked : List Source) : asked = asked ++ [] := (List.append_nil asked).symm
  cases h with
  | read s h => exact ⟨t, [], .read t h, hagrees, hnone _, hnone _⟩
  | unreadable s h => exact ⟨t, [], .unreadable t h, hagrees, hnone _, hnone _⟩
  | hit text h =>
    have hcheck := (hagrees.check_eq _).symm.trans h
    exact ⟨t, [], .hit text hcheck, hagrees, hnone _, hnone _⟩
  | miss text h =>
    have hcheck := (hagrees.check_eq _).symm.trans h
    exact ⟨t, [], .miss text hcheck, hagrees, hnone _, hnone _⟩
  | answer digest s h => exact ⟨_, _, .answer digest t h, hagrees, rfl, rfl⟩
  | fail digest s h => exact ⟨_, _, .fail digest t h, hagrees, rfl, rfl⟩
  | record digest result s =>
    exact ⟨_, [], .record digest result t, hagrees.record digest result, hnone _, hnone _⟩

/-- What recordings of a file keep, a step of its worker keeps. -/
lemma Moves.keeps {P : RunCache → Prop}
    (hrecord : ∀ c digest result, P c → P (c.record path digest result))
    (h : Moves engine settings d path stage s next s') (hs : P s.cache) : P s'.cache := by
  cases h with
  | read | unreadable | hit | miss | answer | fail => exact hs
  | record digest result s => exact hrecord s.cache digest result hs

/-- **A worker writes only the entry of its own file.** -/
lemma Moves.agreesAt {other : String} (hother : other ≠ path)
    (h : Moves engine settings d path stage s next s') : s.cache.AgreesAt s'.cache other :=
  h.keeps (P := fun c => s.cache.AgreesAt c other)
    (fun _ _ _ hc => hc.trans (RunCache.agreesAt_record hother _ _)) (.refl _ other)

/-- How many steps a worker has still to take, at most. -/
def stepsLeft : Stage → Nat
  | .waiting => 4
  | .hashed .. => 3
  | .missed .. => 2
  | .answered .. => 1
  | .done _ => 0

lemma Moves.stepsLeft_lt (h : Moves engine settings d path stage s next s') :
    next.stepsLeft < stage.stepsLeft := by
  cases h <;> simp [stepsLeft]

variable (engine settings d path) in
/-- **No worker ever waits for another one.** -/
lemma exists_step_of_not_done (h : ∀ answer, stage ≠ .done answer) (s : LintState) :
    ∃ next, stage.step engine settings d path s = some next := by
  cases stage with
  | waiting => simp only [step]; split <;> exact ⟨_, rfl⟩
  | hashed text digest => simp only [step]; split <;> exact ⟨_, rfl⟩
  | missed text digest => simp only [step]; split <;> exact ⟨_, rfl⟩
  | answered digest result => exact ⟨_, rfl⟩
  | done answer => exact absurd rfl (h answer)

end Stage

/-! ### All workers -/

lemma sum_update_add {size : Nat} {α M : Type} [AddCommMonoid M] (weight : Fin size → α → M)
    (f : Fin size → α) (i : Fin size) (a : α) :
    (∑ j, weight j (Function.update f i a j)) + weight i (f i) =
      (∑ j, weight j (f j)) + weight i a := by
  have hrest : ∑ j ∈ Finset.univ.erase i, weight j (Function.update f i a j) =
      ∑ j ∈ Finset.univ.erase i, weight j (f j) :=
    Finset.sum_congr rfl fun j hj => by rw [Function.update_of_ne (Finset.ne_of_mem_erase hj)]
  rw [← Finset.add_sum_erase _ _ (Finset.mem_univ i),
    ← Finset.add_sum_erase _ (fun j => weight j (f j)) (Finset.mem_univ i), hrest,
    Function.update_self, add_right_comm, add_comm (weight i a), add_right_comm]

/-- The workers of some files, with what they share. -/
structure Crew (size : Nat) where
  shared : LintState
  stages : Fin size → Stage

namespace Crew

/-- The workers before the first step. -/
def start (size : Nat) (c : RunCache) : Crew size := ⟨⟨c, []⟩, fun _ => .waiting⟩

/-- A step of any worker. -/
inductive Step (engine : Engine) (settings : EngineSettings) (d : Disk) (paths : List String) :
    Crew paths.length → Crew paths.length → Prop where
  | work {crew : Crew paths.length} (i : Fin paths.length) {next : Stage} {shared : LintState}
    (h : (crew.stages i).step engine settings d paths[i] crew.shared = some (next, shared)) :
    Step engine settings d paths crew ⟨shared, Function.update crew.stages i next⟩

/-- All workers are done. -/
def IsFinished {size : Nat} (crew : Crew size) : Prop := ∀ i, ∃ answer, crew.stages i = .done answer

/-- This can be the answer when all workers are done.  The results are in the order of the files; if
there are errors, any of them can be the answer. -/
def Returns {size : Nat} (crew : Crew size) : Except RunError (List SourceResult) → Prop
  | .ok results =>
    ∃ result : Fin size → SourceResult, results = List.ofFn result ∧
      ∀ i, crew.stages i = .done (.ok (result i))
  | .error error => ∃ i, crew.stages i = .done (.error error)

variable {engine : Engine} {settings : EngineSettings} {d : Disk} {c : RunCache}
  {paths : List String}

variable (engine settings d paths) in
/-- **Every interleaving can be brought to an end.**  While some worker is not done it can take a
step, and each step leaves fewer steps to take. -/
theorem exists_isFinished (crew : Crew paths.length) :
    ∃ crew', Relation.ReflTransGen (Step engine settings d paths) crew crew' ∧
      crew'.IsFinished := by
  induction hleft : ∑ i, (crew.stages i).stepsLeft using Nat.strong_induction_on generalizing crew
    with
  | _ left ih =>
    by_cases hfinished : crew.IsFinished
    · exact ⟨crew, .refl, hfinished⟩
    · obtain ⟨i, hi⟩ := not_forall.mp hfinished
      obtain ⟨⟨next, shared⟩, hwork⟩ := Stage.exists_step_of_not_done engine settings d paths[i]
        (not_exists.mp hi) crew.shared
      have hsum := sum_update_add (fun _ stage => Stage.stepsLeft stage) crew.stages i next
      have hless := (Stage.step_eq_some_iff.mp hwork).stepsLeft_lt
      obtain ⟨crew', hrun, hdone⟩ := ih (∑ j, (Function.update crew.stages i next j).stepsLeft)
        (by omega) ⟨shared, Function.update crew.stages i next⟩ rfl
      exact ⟨crew', .head (.work i hwork) hrun, hdone⟩

/-- The crew is what the workers come to that work alone, each on the cache as it was found. -/
structure Mirrors (engine : Engine) (settings : EngineSettings) (d : Disk) (c : RunCache)
    (paths : List String) (alone : Fin paths.length → LintState) (crew : Crew paths.length) :
    Prop where
  agrees : ∀ i, (alone i).cache.AgreesAt crew.shared.cache paths[i]
  finish : ∀ i, (crew.stages i).finish engine settings d paths[i] (alone i) =
    lintAlone engine settings d c paths[i]
  others : ∀ path ∉ paths, c.AgreesAt crew.shared.cache path
  asked : (crew.shared.asked : Multiset Source) = ∑ i, ((alone i).asked : Multiset Source)

lemma mirrors_start :
    Mirrors engine settings d c paths (fun _ => ⟨c, []⟩) (start paths.length c) where
  agrees i := .refl c paths[i]
  finish _ := rfl
  others path _ := .refl c path
  asked := by simp [start]

/-- **A step of any worker keeps the mirror image**: the worker that works alone takes the same
step, and for the others nothing changes. -/
lemma Mirrors.step (hpaths : paths.Nodup) {alone : Fin paths.length → LintState}
    {crew crew' : Crew paths.length} (h : Mirrors engine settings d c paths alone crew)
    (hstep : Step engine settings d paths crew crew') :
    ∃ alone', Mirrors engine settings d c paths alone' crew' := by
  obtain ⟨i, hwork⟩ := hstep
  have hmoves := Stage.step_eq_some_iff.mp hwork
  obtain ⟨t, calls, halone, hagrees, hasked, haskedAlone⟩ :=
    hmoves.exists_of_agreesAt (h.agrees i)
  have hothers : ∀ path ≠ paths[i], crew.shared.cache.AgreesAt _ path :=
    fun path hpath => hmoves.agreesAt hpath
  refine ⟨Function.update alone i t, ?_, ?_, ?_, ?_⟩
  · intro j
    by_cases hj : j = i
    · subst hj
      rw [Function.update_self]
      exact hagrees
    -- two workers have different files, so what one records is nothing to the other
    · have hpath : paths[j] ≠ paths[i] := fun heq =>
        hj (Fin.ext ((List.Nodup.getElem_inj_iff hpaths).mp heq))
      rw [Function.update_of_ne hj]
      exact (h.agrees j).trans (hothers _ hpath)
  · intro j
    by_cases hj : j = i
    · subst hj
      simp only [Function.update_self]
      rw [halone.finish_eq]
      exact h.finish j
    · simp only [Function.update_of_ne hj]
      exact h.finish j
  · intro path hpath
    have hne : path ≠ paths[i] := by
      rintro rfl
      exact hpath (List.getElem_mem _)
    exact (h.others path hpath).trans (hothers path hne)
  -- What is asked at this step is counted once on either side.
  · have hsum := sum_update_add (fun _ (s : LintState) => (s.asked : Multiset Source)) alone i t
    rw [haskedAlone, ← Multiset.coe_add, add_comm (Multiset.ofList (alone i).asked), ← add_assoc,
      add_right_cancel_iff] at hsum
    rw [hasked, ← Multiset.coe_add, h.asked, hsum]

/-- **Every interleaving keeps the mirror image.** -/
lemma exists_mirrors (hpaths : paths.Nodup) {crew : Crew paths.length}
    (hrun : Relation.ReflTransGen (Step engine settings d paths) (start paths.length c) crew) :
    ∃ alone, Mirrors engine settings d c paths alone crew := by
  induction hrun with
  | refl => exact ⟨_, mirrors_start⟩
  | tail _ hstep ih =>
    obtain ⟨alone, h⟩ := ih
    exact h.step hpaths hstep

/-! ### When all workers are done -/

section

variable {alone : Fin paths.length → LintState} {crew : Crew paths.length}

/-- A worker that is done has come to what it comes to alone. -/
lemma Mirrors.eq_of_isFinished (h : Mirrors engine settings d c paths alone crew)
    (hfinished : crew.IsFinished) (i : Fin paths.length) :
    crew.stages i = .done (lintAlone engine settings d c paths[i]).1 ∧
      alone i = (lintAlone engine settings d c paths[i]).2 := by
  obtain ⟨answer, hanswer⟩ := hfinished i
  have hfinish := h.finish i
  rw [hanswer] at hfinish
  rw [← hfinish]
  exact ⟨hanswer, rfl⟩

/-- The workers hand over what they hand over alone, in whatever order. -/
lemma Mirrors.asked_perm (h : Mirrors engine settings d c paths alone crew)
    (hfinished : crew.IsFinished) :
    crew.shared.asked.Perm
      (paths.flatMap fun path => (lintAlone engine settings d c path).2.asked) := by
  rw [← Multiset.coe_eq_coe, h.asked, ← Multiset.coe_bind]
  simp only [(h.eq_of_isFinished hfinished _).2]
  exact Fin.sum_univ_fun_getElem paths fun path =>
    ((lintAlone engine settings d c path).2.asked : Multiset Source)

lemma Mirrors.find?_entries (h : Mirrors engine settings d c paths alone crew)
    (hfinished : crew.IsFinished) (path : String) :
    crew.shared.cache.cache.entries.find? path =
      if path ∈ paths then (newCached? engine settings d c path).or (c.cache.entries.find? path)
      else c.cache.entries.find? path := by
  split
  · next hmem =>
    obtain ⟨i, hi, rfl⟩ := List.getElem_of_mem hmem
    have hagrees := h.agrees ⟨i, hi⟩
    rw [(h.eq_of_isFinished hfinished ⟨i, hi⟩).2] at hagrees
    rw [← find?_lintAlone]
    exact hagrees.entry
  · next hmem => exact (h.others path hmem).entry

/-- The crew answers with results exactly when every file has one, and then with these. -/
lemma Mirrors.returns_ok_iff (h : Mirrors engine settings d c paths alone crew)
    (hfinished : crew.IsFinished) (results : List SourceResult) :
    crew.Returns (.ok results) ↔ List.Forall₂
      (fun path result => (lintAlone engine settings d c path).1 = .ok result) paths results := by
  rw [List.forall₂_iff_get]
  constructor
  · rintro ⟨result, rfl, hdone⟩
    refine ⟨by simp, fun i hi hi' => ?_⟩
    have hstage := (h.eq_of_isFinished hfinished ⟨i, hi⟩).1
    rw [hdone, Stage.done.injEq] at hstage
    simpa using hstage.symm
  · rintro ⟨hlength, hall⟩
    refine ⟨fun i => results.get (i.cast hlength), ?_, fun i => ?_⟩
    · exact List.ext_getElem (by simp [hlength]) (by simp)
    · rw [(h.eq_of_isFinished hfinished i).1]
      exact congrArg Stage.done (hall i i.isLt (hlength ▸ i.isLt))

lemma Mirrors.exists_returns_ok_iff (h : Mirrors engine settings d c paths alone crew)
    (hfinished : crew.IsFinished) :
    (∃ results, crew.Returns (.ok results)) ↔
      ∀ path ∈ paths, isFatal engine settings d c path = false := by
  simp only [h.returns_ok_iff hfinished, ← mapM_eq_ok_iff, exists_mapM_eq_ok_iff]
  exact forall₂_congr fun path _ => exists_lintAlone_eq_ok_iff engine settings d c path

lemma Mirrors.exists_returns_error_iff (h : Mirrors engine settings d c paths alone crew)
    (hfinished : crew.IsFinished) :
    (∃ error, crew.Returns (.error error)) ↔
      ∃ path ∈ paths, isFatal engine settings d c path = true := by
  constructor
  · rintro ⟨error, i, hdone⟩
    rw [(h.eq_of_isFinished hfinished i).1, Stage.done.injEq] at hdone
    exact ⟨_, List.getElem_mem i.isLt, (exists_lintAlone_eq_error_iff ..).mp ⟨error, hdone⟩⟩
  · rintro ⟨path, hmem, hfatal⟩
    obtain ⟨i, hi, rfl⟩ := List.getElem_of_mem hmem
    obtain ⟨error, herror⟩ := (exists_lintAlone_eq_error_iff ..).mpr hfatal
    exact ⟨error, ⟨i, hi⟩, (h.eq_of_isFinished hfinished ⟨i, hi⟩).1.trans (congrArg _ herror)⟩

lemma Mirrors.exists_returns (h : Mirrors engine settings d c paths alone crew)
    (hfinished : crew.IsFinished) : ∃ answer, crew.Returns answer := by
  by_cases hfatal : ∃ path ∈ paths, isFatal engine settings d c path = true
  · obtain ⟨error, hreturns⟩ := (h.exists_returns_error_iff hfinished).mpr hfatal
    exact ⟨_, hreturns⟩
  · obtain ⟨results, hreturns⟩ := (h.exists_returns_ok_iff hfinished).mpr fun path hmem =>
      Bool.eq_false_iff.mpr fun htrue => hfatal ⟨path, hmem, htrue⟩
    exact ⟨_, hreturns⟩

lemma Mirrors.exists_eq_ok_iff (h : Mirrors engine settings d c paths alone crew)
    (hfinished : crew.IsFinished) {answer : Except RunError (List SourceResult)}
    (hreturns : crew.Returns answer) :
    (∃ results, answer = .ok results) ↔
      ∀ path ∈ paths, isFatal engine settings d c path = false := by
  cases answer with
  | error error =>
    obtain ⟨path, hmem, hfatal⟩ := (h.exists_returns_error_iff hfinished).mp ⟨error, hreturns⟩
    refine iff_of_false (fun ⟨_, hresults⟩ => nomatch hresults) fun hall => ?_
    exact Bool.false_ne_true ((hall path hmem).symm.trans hfatal)
  | ok results =>
    exact iff_of_true ⟨results, rfl⟩ ((h.exists_returns_ok_iff hfinished).mp ⟨results, hreturns⟩)

end

/-- **The order of the steps does not matter.**  Whatever the interleaving, when all workers are
done the answer is one of results exactly when no file is fatal; these are then the results of the
files linted alone, which are those of the files linted one after the other.  What has been handed
to the engine and what the cache holds is the same for every interleaving. -/
theorem finished_eq_lintAlone (hpaths : paths.Nodup) {crew : Crew paths.length}
    (hrun : Relation.ReflTransGen (Step engine settings d paths) (start paths.length c) crew)
    (hfinished : crew.IsFinished) :
    (∃ answer, crew.Returns answer) ∧
      (∀ answer, crew.Returns answer → ((∃ results, answer = .ok results) ↔
        ∀ path ∈ paths, isFatal engine settings d c path = false)) ∧
      (∀ results, crew.Returns (.ok results) →
        List.Forall₂ (fun path result => (lintAlone engine settings d c path).1 = .ok result)
          paths results ∧
        (lintFiles engine settings d paths c).answer = .ok results) ∧
      crew.shared.asked.Perm
        (paths.flatMap fun path => (lintAlone engine settings d c path).2.asked) ∧
      ∀ path, crew.shared.cache.cache.entries.find? path =
        if path ∈ paths then (newCached? engine settings d c path).or (c.cache.entries.find? path)
        else c.cache.entries.find? path := by
  obtain ⟨alone, h⟩ := exists_mirrors hpaths hrun
  refine ⟨h.exists_returns hfinished, fun _ => h.exists_eq_ok_iff hfinished, ?_,
    h.asked_perm hfinished, h.find?_entries hfinished⟩
  intro results hreturns
  have halone := (h.returns_ok_iff hfinished results).mp hreturns
  refine ⟨halone, ?_⟩
  show (lintEach engine settings d paths ⟨c, []⟩).1 = .ok results
  rw [lintEach_answer_eq hpaths fun path _ => .refl c path]
  exact mapM_eq_ok_iff.mpr halone

/-- The cache that workers share has grown from the one before the first step. -/
lemma isGrownFrom_of_run {crew : Crew paths.length}
    (hrun : Relation.ReflTransGen (Step engine settings d paths) (start paths.length c) crew) :
    crew.shared.cache.IsGrownFrom c := by
  induction hrun with
  | refl => exact .refl c
  | tail _ hstep ih =>
    obtain ⟨i, hwork⟩ := hstep
    exact (Stage.step_eq_some_iff.mp hwork).keeps (P := fun c' => c'.IsGrownFrom c)
      (fun _ _ _ h => h.record ..) ih

/-- **Side by side or one after the other, the same is written back.**  If no file is fatal, the
workers leave the cache that the files leave when they are linted in order. -/
theorem flush_eq_lintFiles (hpaths : paths.Nodup) (hsorted : c.cache.entries.Sorted)
    {crew : Crew paths.length}
    (hrun : Relation.ReflTransGen (Step engine settings d paths) (start paths.length c) crew)
    (hfinished : crew.IsFinished)
    (hall : ∀ path ∈ paths, isFatal engine settings d c path = false) :
    crew.shared.cache.flush d = (lintFiles engine settings d paths c).disk := by
  obtain ⟨alone, h⟩ := exists_mirrors hpaths hrun
  have hcache : crew.shared.cache.cache =
      (lintEach engine settings d paths ⟨c, []⟩).2.cache.cache := by
    refine (isGrownFrom_of_run hrun).cache_eq (isGrownFrom_lintEach engine settings d c paths [])
      hsorted fun path => ?_
    rw [h.find?_entries hfinished, find?_lintEach hpaths, doneFiles_eq_self hall]
  show (Cache.save _ d).disk = (Cache.save _ d).disk
  rw [hcache]

/-- An empty cache. -/
def emptyCache : RunCache := ⟨{ file := "/c" }, "key", false⟩

/-- Two workers that have both read their file before either asks the cache. -/
def bothRead : Crew 2 where
  shared := ⟨emptyCache, []⟩
  stages := Function.update
    (Function.update (fun _ => .waiting) 0 (.hashed "a{}" (Digest.ofString "a{}")))
    1 (.hashed "b{}" (Digest.ofString "b{}"))

/-- Whatever these two do next, both files get their result, and each is handed over once. -/
theorem finished_eq_lintAlone_twoSheets :
    ∃ crew, Relation.ReflTransGen (Step Engine.structural {} twoSheets ["/a", "/b"]) bothRead crew ∧
      crew.IsFinished ∧ (∃ results, crew.Returns (.ok results)) ∧
      crew.shared.asked.Perm [⟨"a{}", some "/a"⟩, ⟨"b{}", some "/b"⟩] := by
  have hreadA : twoSheets.readText "/a" = .ok "a{}" := eq_ok_of_toOption (by decide +kernel)
  have hreadB : twoSheets.readText "/b" = .ok "b{}" := eq_ok_of_toOption (by decide +kernel)
  have hbegin : Relation.ReflTransGen (Step Engine.structural {} twoSheets ["/a", "/b"])
      (start 2 emptyCache) bothRead := by
    have hfirst : Stage.waiting.step Engine.structural {} twoSheets "/a" ⟨emptyCache, []⟩ =
        some (.hashed "a{}" (Digest.ofString "a{}"), ⟨emptyCache, []⟩) := by
      simp only [Stage.step, hreadA]
    have hsecond : Stage.waiting.step Engine.structural {} twoSheets "/b" ⟨emptyCache, []⟩ =
        some (.hashed "b{}" (Digest.ofString "b{}"), ⟨emptyCache, []⟩) := by
      simp only [Stage.step, hreadB]
    exact .head (.work 0 hfirst) (.single (.work 1 hsecond))
  obtain ⟨crew, hrest, hfinished⟩ :=
    exists_isFinished Engine.structural {} twoSheets ["/a", "/b"] bothRead
  obtain ⟨⟨answer, hanswer⟩, hok, -, hasked, -⟩ :=
    finished_eq_lintAlone (by decide) (hbegin.trans hrest) hfinished
  obtain ⟨results, rfl⟩ := (hok answer hanswer).mpr (by decide +kernel)
  have hcalls : ["/a", "/b"].flatMap (fun path =>
      (lintAlone Engine.structural {} twoSheets emptyCache path).2.asked) =
      [⟨"a{}", some "/a"⟩, ⟨"b{}", some "/b"⟩] := by decide +kernel
  rw [hcalls] at hasked
  exact ⟨crew, hrest, hfinished, ⟨results, hanswer⟩, hasked⟩

end Crew

end SheetLint
