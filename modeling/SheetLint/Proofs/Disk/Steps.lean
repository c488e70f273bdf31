import SheetLint.Proofs.Disk.Tree
import SheetLint.Proofs.Path.Around

/-!
# What changes a disk

Writing puts a file in place of a file or of nothing (`exists_of_write_eq_ok`), making a directory
puts one in place of nothing (`exists_of_makeDir_eq_ok`).  These two say everything that a request
can do to the tree; nothing else has to look into the requests.

Making a directory with its parents is a sequence of such steps, for paths around the given one, and
keeps whatever each step keeps (`makeDirs_keeps`).  It is stated for a property of disks, so that
growth, the working directory, the contents of files and footprints all come from it in a line.
-/

namespace SheetLint

namespace Disk

variable {d d' : Disk} {path : String} {content : ByteArray}

/-- **What writing does.** -/
lemma exists_of_write_eq_ok (h : d.write path content = .ok d') :
    ∃ place t, d.target path false = .ok t ∧ d' = d.put place (.file content) ∧
      ((∃ old, t = .found place (.file old)) ∨
        ∃ directory name, t = .missing directory name ∧ place = directory ++ [name]) := by
  unfold write at h
  split at h
  · exact nomatch h
  · obtain ⟨t, ht, h⟩ := exists_of_bind_eq_ok h
    rcases t with ⟨place, node⟩ | ⟨directory, name⟩
    · cases node with
      | file old =>
        cases h
        exact ⟨place, _, ht, rfl, Or.inl ⟨old, rfl⟩⟩
      | link | dir => exact nomatch h
    · cases h
      exact ⟨_, _, ht, rfl, Or.inr ⟨directory, name, rfl, rfl⟩⟩

/-- **What making a directory does.** -/
lemma exists_of_makeDir_eq_ok (h : d.makeDir path = .ok d') :
    ∃ directory name,
      d.target (if withoutEndSlashes path = "" then path else withoutEndSlashes path) true =
        .ok (.missing directory name) ∧
      d' = d.put (directory ++ [name]) .emptyDir := by
  unfold makeDir at h
  split at h
  · exact nomatch h
  · obtain ⟨t, ht, h⟩ := exists_of_bind_eq_ok h
    rcases t with ⟨place, node⟩ | ⟨directory, name⟩
    · exact nomatch h
    · cases h
      exact ⟨directory, name, ht, rfl⟩

lemma ensureDir_keeps {P : Disk → Prop} (hmake : ∀ d', d.makeDir path = .ok d' → P d') (h : P d) :
    P (d.ensureDir path).disk := by
  unfold ensureDir
  cases hmade : d.makeDir path with
  | ok d' => exact hmake d' hmade
  | error error => exact h

/-- **What making directories at a path and around it keeps, `makeDirs` keeps.** -/
lemma makeDirs_keeps {P : Disk → Prop}
    (hmake : ∀ d d' dir, dir = path ∨ Path.IsAncestor dir path → d.makeDir dir = .ok d' → P d →
      P d')
    (h : P d) : P (d.makeDirs path).disk := by
  unfold makeDirs
  generalize path.length + 1 = rounds
  induction rounds generalizing path with
  | zero => exact h
  | succ rounds ih =>
    have hlast (d : Disk) (h : P d) : P (d.ensureDir path).disk :=
      ensureDir_keeps (fun d' hmade => hmake d d' path (Or.inl rfl) hmade h) h
    unfold makeDirsFrom
    -- the three ways of a round: no path is left, the parent is missing, or the path is tried
    -- itself
    split
    · exact h
    · split
      · next parent _ hparent =>
        have hparents : P (d.makeDirsFrom rounds parent).disk := by
          refine ih ?_
          intro d d' dir hdir
          refine hmake d d' dir (Or.inr ?_)
          rcases hdir with rfl | hdir
          · exact .single hparent
          · exact hdir.tail hparent
        split
        · next d' hd' =>
          rw [hd'] at hparents
          exact hlast d' hparents
        · exact hparents
      · exact hlast d h

end Disk

end SheetLint
