import SheetLint.Proofs.Disk.Steps

/-!
# What the files of a disk hold

A property of every file of a disk, `Disk.AllContents`, is kept by what a program does to the disk,
as long as the contents it writes have the property.  What is read from such a disk has it.

The property is defined along the tree, with one rule for each kind of node.  A directory has it if
what is found under each name has it; entries that are hidden behind another one of the same name do
not count, which lets a file be put into a tree without supposing that its entries are sorted.
-/

namespace SheetLint.Disk

variable {P Q : ByteArray → Prop}

/-- All files at and below the node hold contents with the property. -/
inductive Node.AllContents (P : ByteArray → Prop) : Node → Prop where
  | file {content : ByteArray} (h : P content) : AllContents P (.file content)
  | link (target : String) : AllContents P (.link target)
  | dir {entries : List (String × Node)}
    (h : ∀ name node, Keyed.find? entries name = some node → AllContents P node) :
    AllContents P (.dir entries)

namespace Node.AllContents

lemma mono (hPQ : ∀ content, P content → Q content) {n : Node} (h : n.AllContents P) :
    n.AllContents Q := by
  induction h with
  | file h => exact .file (hPQ _ h)
  | link target => exact .link target
  | dir _ ih => exact .dir ih

lemma emptyDir : Node.emptyDir.AllContents P :=
  .dir fun name node h => by simp [Keyed.find?] at h

lemma child? {n m : Node} {name : String} (h : n.AllContents P) (hm : n.child? name = some m) :
    m.AllContents P := by
  cases h with
  | file h => simp [Node.child?, Node.entries, Keyed.find?] at hm
  | link target => simp [Node.child?, Node.entries, Keyed.find?] at hm
  | dir h => exact h name m hm

lemma at? {n m : Node} {place : List String} (h : n.AllContents P) (hm : n.at? place = some m) :
    m.AllContents P := by
  induction place generalizing n with
  | nil =>
    rw [Node.at?, Option.some.injEq] at hm
    exact hm ▸ h
  | cons name rest ih =>
    rw [Node.at?, Option.bind_eq_some_iff] at hm
    obtain ⟨c, hc, hm⟩ := hm
    exact ih (h.child? hc) hm

lemma insert {entries : List (String × Node)} (h : (Node.dir entries).AllContents P) {new : Node}
    (hnew : new.AllContents P) (name : String) :
    (Node.dir (Keyed.insert name new entries)).AllContents P := by
  refine .dir ?_
  intro other node hnode
  by_cases hother : other = name
  · subst hother
    rw [Keyed.find?_insert_self, Option.some.injEq] at hnode
    exact hnode ▸ hnew
  · rw [Keyed.find?_insert_of_ne hother] at hnode
    exact h.child? (n := .dir entries) hnode

lemma put {n new : Node} {place : List String} (h : n.AllContents P) (hnew : new.AllContents P) :
    (n.put new place).AllContents P := by
  induction place generalizing n with
  | nil =>
    rw [Node.put]
    exact hnew
  | cons name rest ih =>
    unfold Node.put
    split
    · rename_i entries
      split
      · rename_i child hchild
        exact h.insert (ih (h.child? (n := .dir entries) hchild)) name
      · exact h.insert hnew name
      · exact h
    · exact h

lemma remove {n : Node} {place : List String} (h : n.AllContents P) :
    (n.remove place).AllContents P := by
  fun_induction Node.remove n place with
  | case1 => exact h
  | case2 name entries =>
    refine .dir ?_
    intro other node hnode
    by_cases hother : other = name
    · subst hother
      rw [Keyed.find?_erase_self] at hnode
      simp at hnode
    · rw [Keyed.find?_erase_of_ne hother] at hnode
      exact h.child? (n := .dir entries) hnode
  | case3 => exact h
  | case4 name rest hrest entries child hchild ih =>
    exact h.insert (ih (h.child? (n := .dir entries) hchild)) name
  | case5 => exact h
  | case6 => exact h

end Node.AllContents

/-! ### Disks -/

/-- All files of the disk hold contents with the property. -/
def AllContents (P : ByteArray → Prop) (d : Disk) : Prop := d.tree.AllContents P

lemma AllContents.mono (hPQ : ∀ content, P content → Q content) {d : Disk} (h : d.AllContents P) :
    d.AllContents Q :=
  Node.AllContents.mono hPQ h

lemma AllContents.put {d : Disk} (h : d.AllContents P) {place : List String} {node : Node}
    (hnode : node.AllContents P) : (d.put place node).AllContents P :=
  Node.AllContents.put h hnode

lemma AllContents.node {d : Disk} (h : d.AllContents P) {path : String} {n : Node}
    (hn : d.node path = .ok n) : n.AllContents P := by
  obtain ⟨place, hplace⟩ := exists_at?_of_node hn
  exact Node.AllContents.at? h hplace

/-- **What is read has the property.** -/
lemma AllContents.read {d : Disk} (h : d.AllContents P) {path : String} {content : ByteArray}
    (hread : d.read path = .ok content) : P content := by
  unfold Disk.read at hread
  obtain ⟨n, hn, hread⟩ := exists_of_bind_eq_ok hread
  have hcontents := h.node hn
  cases hcontents with
  | file hcontent =>
    cases hread
    exact hcontent
  | link | dir => exact nomatch hread

/-- **Writing keeps the property**, when the new content has it. -/
lemma AllContents.write {d d' : Disk} (h : d.AllContents P) {path : String} {content : ByteArray}
    (hcontent : P content) (hwrite : d.write path content = .ok d') : d'.AllContents P := by
  obtain ⟨place, t, -, rfl, -⟩ := exists_of_write_eq_ok hwrite
  exact h.put (.file hcontent)

/-- **Making directories keeps the property.** -/
lemma AllContents.makeDirs {d : Disk} (h : d.AllContents P) (path : String) :
    (d.makeDirs path).disk.AllContents P := by
  refine makeDirs_keeps ?_ h
  rintro d d' dir - hmade h
  obtain ⟨directory, name, -, rfl⟩ := exists_of_makeDir_eq_ok hmade
  exact AllContents.put h .emptyDir

/-- **Removing keeps the property.** -/
lemma AllContents.remove {d d' : Disk} (h : d.AllContents P) {path : String}
    (hremove : d.remove path = .ok d') : d'.AllContents P := by
  unfold Disk.remove at hremove
  obtain ⟨t, -, hremove⟩ := exists_of_bind_eq_ok hremove
  rcases t with ⟨place, node⟩ | ⟨directory, name⟩
  · cases hremove
    exact Node.AllContents.remove h
  · exact nomatch hremove

end SheetLint.Disk
