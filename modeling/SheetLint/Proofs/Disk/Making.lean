import SheetLint.Proofs.Disk.Footprint
import SheetLint.Proofs.Disk.Parent

/-!
# Making directories

Making a directory with its parents goes outwards as long as parents are missing and then makes one
directory in the other.  It is defined by rounds, and as many rounds as the path is long are enough
(`makeDirsFrom_eq_makeDirs`), since each parent is shorter.

It fails only where something that is no directory is in the way (`exists_not_isDir_of_makeDirs`).
Where nothing is in the way it leaves a directory: the one that was there, or a new one
(`makes_of_isAncestor`).

`Disk.IsFree` says of one path that nothing is in its way, and `Disk.Makes` what making it leaves.
Paths that go upwards are what makes both of them long: `a/..` exists as soon as `a` has been made,
and what it leads to may hold anything.  So a new directory is known to be empty only if its path
has no `..` in it, and of a path with `..` it has to be supposed that what comes to light behind it
is a directory.
-/

namespace SheetLint.Disk

open SheetLint.Path (parent? IsAncestor EndsWithStep)

variable {d : Disk} {path file : String}

/-! ### One step -/

lemma ensureDir_cases (d : Disk) (path : String) :
    (∃ d', d.makeDir path = .ok d' ∧ d.ensureDir path = ⟨.ok (), d'⟩) ∨
      ∃ error, d.makeDir path = .error error ∧
        d.ensureDir path = ⟨if d.isDir path then .ok () else .error error, d⟩ := by
  unfold ensureDir
  cases d.makeDir path with
  | ok d' => exact Or.inl ⟨d', rfl, rfl⟩
  | error error => exact Or.inr ⟨error, rfl, rfl⟩

/-- **What one step outwards can do**: the directory is made after its parents, or at once. -/
lemma makeDirsFrom_cases (d : Disk) (rounds : Nat) (hne : path ≠ "") :
    (∃ parent, d.makeDir path = .error .notFound ∧ parent? path = some parent ∧
      d.makeDirsFrom (rounds + 1) path =
        match d.makeDirsFrom rounds parent with
        | ⟨.ok (), d⟩ => d.ensureDir path
        | stopped => stopped) ∨
    ((∀ parent, d.makeDir path = .error .notFound → parent? path ≠ some parent) ∧
      d.makeDirsFrom (rounds + 1) path = d.ensureDir path) := by
  have hempty : ¬ path.isEmpty = true := by rwa [String.isEmpty_iff]
  rw [makeDirsFrom, if_neg hempty]
  split
  · next parent hmissing hparent => exact Or.inl ⟨parent, hmissing, hparent, rfl⟩
  · next hother => exact Or.inr ⟨fun parent hmissing hparent => hother parent hmissing hparent, rfl⟩

lemma makeDirsFrom_empty (d : Disk) (rounds : Nat) : d.makeDirsFrom rounds "" = ⟨.ok (), d⟩ := by
  cases rounds <;> rfl

/-! ### What is in the way -/

/-- **Where directories cannot be made**, there is a path around that leads to none. -/
lemma exists_not_isDir_of_makeDirs {error : SystemError}
    (h : (d.makeDirs path).answer = .error error) :
    ∃ dir, (dir = path ∨ IsAncestor dir path) ∧ dir ≠ "" ∧
      (d.makeDirs path).disk.isDir dir = false := by
  unfold makeDirs at h ⊢
  generalize path.length + 1 = rounds at h ⊢
  induction rounds generalizing path with
  | zero => exact nomatch h
  | succ rounds ih =>
    by_cases hempty : path = ""
    · rw [hempty, makeDirsFrom_empty] at h
      exact nomatch h
    -- what cannot be made and is no directory is the path itself
    have hlast (d : Disk) (h : (d.ensureDir path).answer = .error error) :
        (d.ensureDir path).disk.isDir path = false := by
      rcases d.ensureDir_cases path with ⟨d', -, hmade⟩ | ⟨refusal, -, hmade⟩
      · rw [hmade] at h
        exact nomatch h
      · rw [hmade] at h ⊢
        by_cases hdir : d.isDir path = true
        · rw [if_pos hdir] at h
          exact nomatch h
        · exact Bool.eq_false_iff.mpr hdir
    -- Either a parent was missing and has been made first, or the path was tried at once.
    rcases d.makeDirsFrom_cases rounds hempty with ⟨parent, -, hparent, hmade⟩ | ⟨-, hmade⟩
    · rw [hmade] at h ⊢
      rcases hparents : d.makeDirsFrom rounds parent with ⟨refusal | _, made⟩
      · rw [hparents] at h
        obtain ⟨dir, hdir, hne, hnot⟩ := ih (by rw [hparents]; exact h)
        rw [hparents] at hnot
        refine ⟨dir, Or.inr ?_, hne, hnot⟩
        rcases hdir with rfl | hdir
        · exact .single hparent
        · exact hdir.tail hparent
      · rw [hparents] at h
        exact ⟨path, Or.inl rfl, hempty, hlast made h⟩
    · rw [hmade] at h ⊢
      exact ⟨path, Or.inl rfl, hempty, hlast d h⟩

/-! ### One directory after the other -/

lemma length_lt_of_parent? {parent : String} (h : parent? path = some parent) (hne : path ≠ "") :
    parent.length < path.length := by
  by_cases hempty : parent = ""
  · subst hempty
    exact Nat.pos_of_ne_zero fun hzero => hne (String.length_eq_zero_iff.mp hzero)
  · obtain ⟨last, trailing, hends⟩ := Path.exists_of_parent? h hempty
    exact hends.length_lt

/-- As many rounds as the path is long are enough. -/
lemma makeDirsFrom_eq_makeDirs (d : Disk) {rounds : Nat} (h : path.length < rounds) :
    d.makeDirsFrom rounds path = d.makeDirs path := by
  unfold makeDirs
  generalize hfirst : path.length + 1 = rounds'
  replace hfirst : path.length < rounds' := by omega
  induction rounds generalizing path rounds' with
  | zero => exact absurd h (Nat.not_lt_zero _)
  | succ rounds ih =>
    cases rounds' with
    | zero => exact absurd hfirst (Nat.not_lt_zero _)
    | succ rounds' =>
      by_cases hempty : path = ""
      · rw [hempty, makeDirsFrom_empty, makeDirsFrom_empty]
      rcases d.makeDirsFrom_cases rounds hempty with
        ⟨parent, hmissing, hparent, hmade⟩ | ⟨hother, hmade⟩
      -- whether the parent is missing does not depend on the rounds that are left
      all_goals
        rcases d.makeDirsFrom_cases rounds' hempty with
          ⟨parent', hmissing', hparent', hmade'⟩ | ⟨hother', hmade'⟩
      · obtain rfl := Option.some.inj (hparent.symm.trans hparent')
        have hshorter := length_lt_of_parent? hparent hempty
        rw [hmade, hmade', ih (by omega) rounds' (by omega)]
      · exact absurd hparent (hother' parent hmissing)
      · exact absurd hparent' (hother parent' hmissing')
      · rw [hmade, hmade']

/-- **A directory is made after the one around it**, whether that is there already or not. -/
lemma makeDirs_of_parent {parent : String} (hparent : parent? path = some parent) (hne : path ≠ "")
    {d₁ : Disk} (hmade : d.makeDirs parent = ⟨.ok (), d₁⟩)
    (h : d₁ = d ∨ d.makeDir path = .error .notFound) :
    d.makeDirs path = d₁.ensureDir path := by
  have hshorter := length_lt_of_parent? hparent hne
  rw [← d.makeDirsFrom_eq_makeDirs (Nat.lt_succ_self path.length)]
  rcases d.makeDirsFrom_cases path.length hne with
    ⟨parent', -, hparent', hmade'⟩ | ⟨hother, hmade'⟩
  · obtain rfl := Option.some.inj (hparent.symm.trans hparent')
    rw [hmade', d.makeDirsFrom_eq_makeDirs hshorter, hmade]
  · rcases h with rfl | hmissing
    · exact hmade'
    · exact absurd hparent (hother parent hmissing)

section

variable (hspelling : path = "" ∨ path = "/" ∨ ¬ Path.EndsInSlash path)

include hspelling

lemma makeDir_of_isDir (h : d.isDir path = true) : d.makeDir path = .error .alreadyExists := by
  obtain ⟨place, entries, htarget⟩ := exists_target_of_isDir h
  have hne := (isLookedAt_of_target htarget).ne_empty
  rw [makeDir, if_neg (by rwa [String.isEmpty_iff]), withoutEndSlashes_eq hspelling]
  rcases target_true_cases d path with ⟨place', target, hlink⟩ | heq
  · rw [hlink]
    rfl
  · rw [heq, htarget]
    rfl

lemma ensureDir_of_isDir (h : d.isDir path = true) : d.ensureDir path = ⟨.ok (), d⟩ := by
  simp only [ensureDir, makeDir_of_isDir hspelling h, h, if_true]

lemma makeDirs_of_isDir (h : d.isDir path = true) : d.makeDirs path = ⟨.ok (), d⟩ := by
  obtain ⟨place, entries, htarget⟩ := exists_target_of_isDir h
  rcases d.makeDirsFrom_cases path.length (isLookedAt_of_target htarget).ne_empty with
    ⟨parent, hmissing, -⟩ | ⟨-, hmade⟩
  · exact nomatch hmissing.symm.trans (makeDir_of_isDir hspelling h)
  · exact hmade.trans (ensureDir_of_isDir hspelling h)

lemma exists_ensureDir_of_missing (hd : d.HasWorkingDir) {place : List String} {name : String}
    (h : d.target path true = .ok (.missing place name)) :
    ∃ d' place', d.ensureDir path = ⟨.ok (), d'⟩ ∧ d.GrowsTo d' ∧
      d'.target path false = .ok (.found place' .emptyDir) := by
  have hne := (isLookedAt_of_target h).ne_empty
  have hmade : d.makeDir path = .ok (d.put (place ++ [name]) .emptyDir) := by
    rw [makeDir, if_neg (by rwa [String.isEmpty_iff]), withoutEndSlashes_eq hspelling, h]
    rfl
  have hgrow := growsTo_of_makeDir hmade
  obtain ⟨around, haround⟩ := hd.isInDir h
  refine ⟨_, place ++ [name], by rw [ensureDir, hmade], hgrow, ?_⟩
  exact target_dir (hgrow.target_eq (.missing (Node.at?_put haround _ name) nofun) h)

end

/-! ### What is made -/

/-- **What making a directory leaves**: the one that was there, or one where nothing was.  That one
is empty, unless the path goes upwards and so leads to what was there already. -/
inductive Makes (d : Disk) (dir : String) : Attempt → Prop where
  | kept (h : dir = "" ∨ d.isDir dir = true) : Makes d dir ⟨.ok (), d⟩
  | made {d' : Disk} (hmissing : d.IsMissing dir) (hgrow : d.GrowsTo d')
    (hdir : d'.isDir dir = true)
    (hempty : ".." ∉ piecesOf dir → ∃ place, d'.target dir false = .ok (.found place .emptyDir)) :
    Makes d dir ⟨.ok (), d'⟩

/-- **A directory can be made at the path**, once there is one around it.  Either there is one
already, or the last step is `..`, or it is a name under which nothing stands.  If the path goes
upwards, what stands there may come to light only when directories are made around it. -/
inductive IsFree (d : Disk) (dir : String) : Prop where
  | empty (h : dir = "")
  | there (h : d.isDir dir = true)
  | up {parent : String} (hparent : parent? dir = some parent)
    (hends : EndsWithStep parent dir ['.', '.'] []) (hlooked : IsLookedAt dir)
  | name {parent name : String} (hparent : parent? dir = some parent)
    (hends : EndsWithName parent dir name) (hlooked : IsLookedAt dir)
    (hnone : ∀ node, d.entry dir ≠ .ok node)
    (hlight : ".." ∈ piecesOf dir → ∀ node, (d.makeDirs parent).disk.entry dir = .ok node →
      (d.makeDirs parent).disk.isDir dir = true)

/-- What is around a path once it is made. -/
lemma Makes.cases_around {parent : String} {attempt : Attempt} (h : d.Makes parent attempt) :
    ∃ d', attempt = ⟨.ok (), d'⟩ ∧ d.GrowsTo d' ∧ (parent = "" ∨ d'.isDir parent = true) ∧
      (d' = d ∨ parent ≠ "" ∧ d.IsMissing parent ∧
        (".." ∉ piecesOf parent →
          ∃ place, d'.target parent false = .ok (.found place .emptyDir))) := by
  cases h with
  | kept h => exact ⟨d, rfl, .refl d, h, Or.inl rfl⟩
  | @made d' hmissing hgrow hdir hempty =>
    obtain ⟨place, entries, htarget⟩ := exists_target_of_isDir hdir
    exact ⟨d', rfl, hgrow, Or.inr hdir,
      Or.inr ⟨(isLookedAt_of_target htarget).ne_empty, hmissing, hempty⟩⟩

/-- **Directories are made where nothing is in the way.**  The induction goes outwards: a directory
whose parent is missing is made in the one that is made for the parent, which is empty unless it
was reached upwards. -/
lemma makes_of_isAncestor (hd : d.HasWorkingDir) (hfree : ∀ dir, IsAncestor dir file → d.IsFree dir)
    {dir : String} (hdir : IsAncestor dir file) : d.Makes dir (d.makeDirs dir) := by
  induction hlength : dir.length using Nat.strong_induction_on generalizing dir with
  | _ length ih =>
  subst hlength
  have hspelling := Path.spelling_of_isAncestor hdir
  -- what is around the directory, and that it is made from there
  -- The parent has been dealt with by the induction.
  have haround {parent : String} {last : List Char} (hparent : parent? dir = some parent)
      (hends : EndsWithStep parent dir last []) (hlooked : IsLookedAt dir) :
      ∃ d₁, d.makeDirs parent = ⟨.ok (), d₁⟩ ∧ d.makeDirs dir = d₁.ensureDir dir ∧
        d.GrowsTo d₁ ∧ (parent = "" ∨ d₁.isDir parent = true) ∧
        (d₁ = d ∨ d.IsMissing dir ∧ (".." ∉ piecesOf dir →
          parent ≠ "" ∧ ∃ place, d₁.target parent false = .ok (.found place .emptyDir))) := by
    obtain ⟨d₁, hmade, hgrow, hthere, hcases⟩ :=
      (ih parent.length hends.length_lt (.head hparent hdir) rfl).cases_around
    refine ⟨d₁, hmade, makeDirs_of_parent hparent hlooked.ne_empty hmade ?_, hgrow, hthere, ?_⟩
    -- if the parent was missing the directory is too, so `makeDirs` goes outwards from it
    · rcases hcases with rfl | ⟨hne, hmissing, -⟩
      · exact Or.inl rfl
      · right
        rw [makeDir, if_neg (by rw [String.isEmpty_iff]; exact hlooked.ne_empty),
          withoutEndSlashes_eq hspelling, target_of_isMissing hd hends hne hlooked hmissing]
        rfl
    · rcases hcases with rfl | ⟨hne, hmissing, hempty⟩
      · exact Or.inl rfl
      · refine Or.inr ⟨Or.inl (target_of_isMissing hd hends hne hlooked hmissing false),
          -- no `..` in the directory's path means none in the parent's
          fun hup => ⟨hne, hempty fun hmem => hup ?_⟩⟩
        exact mem_piecesOf_of_isAncestor (.single hparent) (by decide) hmem
  -- One case for each way in which nothing is in the way.
  cases hfree dir hdir with
  | empty h =>
    subst h
    exact .kept (Or.inl rfl)
  | there h =>
    rw [makeDirs_of_isDir hspelling h]
    exact .kept (Or.inr h)
  | up hparent hends hlooked =>
    obtain ⟨d₁, -, hmade, hgrow, hthere, hcases⟩ := haround hparent hends hlooked
    have hup := isDir_up (hd.growsTo hgrow) hends hlooked hthere
    rw [hmade, ensureDir_of_isDir hspelling hup]
    rcases hcases with rfl | ⟨hmissing, -⟩
    · exact .kept (Or.inr hup)
    · obtain ⟨front, hpieces, -⟩ := hends.steps
      exact .made hmissing hgrow hup fun hnot => absurd (by simp [piecesOf, hpieces]) hnot
  | name hparent hends hlooked hnone hlight =>
    obtain ⟨d₁, hparents, hmade, hgrow, hthere, hcases⟩ :=
      haround hparent hends.endsWithStep hlooked
    have hd₁ := hd.growsTo hgrow
    rw [hparents] at hlight
    rw [hmade]
    rcases target_cases_of_isDir hd₁ hends hlooked hthere with
      ⟨place, node, hfound⟩ | ⟨place, hmissing⟩
    -- Something stands under the name now. It did not before, so the directory around has been
    -- made; without `..` that one is empty, and with `..` what came to light is a directory.
    · have hentry : d₁.entry dir = .ok node := by
        rw [entry, hfound]
        rfl
      rcases hcases with rfl | ⟨hmissing, hempty⟩
      · exact absurd hentry (hnone node)
      by_cases hup : ".." ∈ piecesOf dir
      · have hdir₁ := hlight hup node hentry
        rw [ensureDir_of_isDir hspelling hdir₁]
        exact .made hmissing hgrow hdir₁ fun hnot => absurd hup hnot
      · obtain ⟨hne, place', hnew⟩ := hempty hup
        cases hfound.symm.trans (target_of_emptyDir hd₁ hends hne hlooked hnew)
    -- Nothing stands under the name: this is the step that makes a directory.
    · obtain ⟨d', place', hensured, hgrow', hnew⟩ :=
        exists_ensureDir_of_missing hspelling hd₁ hmissing
      rw [hensured]
      refine .made ?_ (hgrow.trans hgrow') (isDir_of_target hnew) fun _ => ⟨place', hnew⟩
      rcases hcases with rfl | ⟨hmissing, -⟩
      · exact Or.inr ⟨place, _, target_of_missing hmissing⟩
      · exact hmissing

end SheetLint.Disk
