import SheetLint.Proofs.Disk.Steps

/-!
# Trees that grow

A path leads through directories and links.  A node that is put into a tree in place of nothing, or
of a file, leaves all of them where they are: at every other place there is afterwards what was
there before (`own_at?_put`).  The tree has grown then, `GrowsTo`, and a path that led somewhere
leads to the same place still (`GrowsTo.target_eq`).  A path whose last name was missing leads to
what was put there.

Two views of a node serve this.  Its `kind` is what matters to a path that leads through it: that it
is a file, a directory, or a link with its target.  What it is by itself, `own`, is all of it but
the entries of a directory, so that a tree can be compared with another one place by place.

`Stop.Becomes` says what becomes of a stop when the tree grows.  Following pieces keeps it
(`followToLink_of_becomes`, with a case for each step), and so does following a whole path through
all its links.  At the end stand the two changes that let a disk grow: making a directory and
writing a file.
-/

namespace SheetLint.Disk

namespace Node

/-! ### The kinds of nodes -/

/-- What matters of a node to a path that leads through it. -/
inductive Kind where
  | file
  | link (target : String)
  | dir
  deriving DecidableEq

/-- The kind of a node. -/
def kind : Node → Kind
  | .file _ => .file
  | .link target => .link target
  | .dir _ => .dir

/-- What a node is by itself: a directory without its entries. -/
def own : Node → Node
  | .dir _ => .emptyDir
  | n => n

/-- Nothing is below the node. -/
def IsBare (n : Node) : Prop := ∀ name rest, n.at? (name :: rest) = none

lemma isBare_file (content : ByteArray) : (file content).IsBare := fun _ _ => rfl

lemma isBare_emptyDir : emptyDir.IsBare := fun _ _ => rfl

lemma kind_own (n : Node) : n.own.kind = n.kind := by
  cases n <;> rfl

lemma eq_dir_of_kind_eq {n : Node} (h : n.kind = .dir) : ∃ entries, n = .dir entries := by
  cases n with
  | file | link => exact nomatch h
  | dir entries => exact ⟨entries, rfl⟩

lemma eq_link_of_kind_eq {n : Node} {target : String} (h : n.kind = .link target) :
    n = .link target := by
  cases n with
  | file | dir => exact nomatch h
  | link other => rw [kind, Kind.link.injEq] at h; rw [h]

lemma eq_file_of_kind_eq {n : Node} (h : n.kind = .file) : ∃ content, n = .file content := by
  cases n with
  | link | dir => exact nomatch h
  | file content => exact ⟨content, rfl⟩

lemma eq_file_of_own_eq {n : Node} {content : ByteArray} (h : n.own = .file content) :
    n = .file content := by
  cases n with
  | file => exact h
  | link | dir => exact nomatch h

lemma eq_dir_of_child? {n child : Node} {name : String} (h : n.child? name = some child) :
    ∃ entries, n = .dir entries := by
  cases n with
  | file | link => exact nomatch h
  | dir entries => exact ⟨entries, rfl⟩

/-! ### Putting a node into a tree -/

lemma child?_insert_self (name : String) (new : Node) (entries : List (String × Node)) :
    (dir (Keyed.insert name new entries)).child? name = some new :=
  Keyed.find?_insert_self name new entries

lemma child?_insert_of_ne {name other : String} (h : other ≠ name) (new : Node)
    (entries : List (String × Node)) :
    (dir (Keyed.insert name new entries)).child? other = (dir entries).child? other :=
  Keyed.find?_insert_of_ne h new entries

lemma put_singleton (entries : List (String × Node)) (new : Node) (name : String) :
    (dir entries).put new [name] = .dir (Keyed.insert name new entries) := by
  cases hfind : Keyed.find? entries name <;> simp [put, hfind]

lemma put_cons_of_child? {entries : List (String × Node)} {name : String} {child : Node}
    (h : (dir entries).child? name = some child) (new : Node) (rest : List String) :
    (dir entries).put new (name :: rest) =
      .dir (Keyed.insert name (child.put new rest) entries) := by
  have hfind : Keyed.find? entries name = some child := h
  simp [put, hfind]

/-- How a node is put below a first name: into the entry of that name, or next to the entries, or
not at all since there is no directory for it. -/
lemma put_cons_cases (tree new : Node) (name : String) (rest : List String) :
    (∃ entries child, tree = .dir entries ∧ tree.child? name = some child ∧
      tree.put new (name :: rest) = .dir (Keyed.insert name (child.put new rest) entries)) ∨
    (∃ entries, tree = .dir entries ∧ tree.child? name = none ∧ rest = [] ∧
      tree.put new (name :: rest) = .dir (Keyed.insert name new entries)) ∨
    tree.put new (name :: rest) = tree := by
  cases tree with
  | file | link => exact Or.inr (Or.inr rfl)
  | dir entries =>
    cases hchild : (dir entries).child? name with
    | some child => exact Or.inl ⟨entries, child, rfl, rfl, put_cons_of_child? hchild new rest⟩
    | none =>
      cases rest with
      | nil => exact Or.inr (Or.inl ⟨entries, rfl, rfl, rfl, put_singleton entries new name⟩)
      | cons second rest =>
        have hfind : Keyed.find? entries name = none := hchild
        exact Or.inr (Or.inr (by simp [put, hfind]))

lemma at?_put {tree : Node} {directory : List String} {entries : List (String × Node)}
    (h : tree.at? directory = some (.dir entries)) (new : Node) (name : String) :
    (tree.put new (directory ++ [name])).at? (directory ++ [name]) = some new := by
  induction directory generalizing tree with
  | nil =>
    cases h
    rw [List.nil_append, put_singleton, at?, child?_insert_self]
    rfl
  | cons first directory ih =>
    obtain ⟨child, hchild, hinner⟩ := Option.bind_eq_some_iff.mp h
    obtain ⟨around, rfl⟩ := eq_dir_of_child? hchild
    rw [List.cons_append, put_cons_of_child? hchild, at?, child?_insert_self]
    exact ih hinner

/-- **A node that is put into a tree changes nothing else.**  When a node with nothing below it is
put in place of nothing or of another such node, each place keeps what stands there by itself,
unless the node stands there now. -/
lemma own_at?_put {tree new : Node} {place : List String}
    (hold : ∀ old, tree.at? place = some old → old.IsBare) (hnew : new.IsBare)
    (other : List String) :
    (other = place ∧ (tree.put new place).at? place = some new) ∨
      ((tree.put new place).at? other).map own = (tree.at? other).map own := by
  induction place generalizing tree other with
  | nil =>
    cases other with
    | nil => exact Or.inl ⟨rfl, rfl⟩
    | cons first more => exact Or.inr (by rw [put, hnew first more, hold tree rfl first more])
  | cons name rest ih =>
    -- The node is put below an entry, next to the entries, or nowhere. What is under another first
    -- name is not touched by any of these.
    rcases put_cons_cases tree new name rest with
      ⟨entries, child, rfl, hchild, hput⟩ | ⟨entries, rfl, hnone, rfl, hput⟩ | hput
    · rw [hput]
      cases other with
      | nil => exact Or.inr rfl
      | cons first more =>
        rw [at?, at?, at?, child?_insert_self]
        by_cases hfirst : first = name
        · subst hfirst
          rw [child?_insert_self, hchild, Option.bind_some, Option.bind_some]
          -- what stands at the place in the child stands at the place in the tree
          have hbare : ∀ old, child.at? rest = some old → old.IsBare := fun old hplace =>
            hold old (by rw [at?, hchild]; exact hplace)
          exact (ih hbare more).imp_left (And.imp_left (congrArg _))
        · exact Or.inr (by rw [child?_insert_of_ne hfirst])
    · rw [hput]
      cases other with
      | nil => exact Or.inr rfl
      | cons first more =>
        rw [at?, at?, at?, child?_insert_self]
        by_cases hfirst : first = name
        · subst hfirst
          cases more with
          | nil => exact Or.inl ⟨rfl, rfl⟩
          | cons second more =>
            rw [child?_insert_self, hnone]
            exact Or.inr (congrArg (Option.map own) (hnew second more))
        · exact Or.inr (by rw [child?_insert_of_ne hfirst])
    · exact Or.inr (by rw [hput])

/-- **A tree that has grown.**  Everything that stood in the old tree is still in the new one, and
of the same kind. -/
def GrowsTo (tree tree' : Node) : Prop :=
  ∀ place node, tree.at? place = some node →
    ∃ node', tree'.at? place = some node' ∧ node'.kind = node.kind

namespace GrowsTo

variable {tree tree' : Node} {place : List String}

lemma at?_dir (h : tree.GrowsTo tree') {entries : List (String × Node)}
    (hplace : tree.at? place = some (.dir entries)) :
    ∃ entries', tree'.at? place = some (.dir entries') := by
  obtain ⟨node, hnode, hkind⟩ := h place _ hplace
  obtain ⟨entries', rfl⟩ := eq_dir_of_kind_eq hkind
  exact ⟨entries', hnode⟩

lemma at?_link (h : tree.GrowsTo tree') {target : String}
    (hplace : tree.at? place = some (.link target)) : tree'.at? place = some (.link target) := by
  obtain ⟨node, hnode, hkind⟩ := h place _ hplace
  rw [hnode, eq_link_of_kind_eq hkind]

lemma at?_file (h : tree.GrowsTo tree') {content : ByteArray}
    (hplace : tree.at? place = some (.file content)) :
    ∃ content', tree'.at? place = some (.file content') := by
  obtain ⟨node, hnode, hkind⟩ := h place _ hplace
  obtain ⟨content', rfl⟩ := eq_file_of_kind_eq hkind
  exact ⟨content', hnode⟩

end GrowsTo

/-- A tree grows when something is put in place of nothing, or of something of the same kind. -/
lemma growsTo_put {tree new : Node} {place : List String}
    (hold : ∀ old, tree.at? place = some old → old.IsBare ∧ new.kind = old.kind)
    (hnew : new.IsBare) : tree.GrowsTo (tree.put new place) := by
  intro other node hnode
  rcases own_at?_put (fun old hplace => (hold old hplace).1) hnew other with
    ⟨rfl, hstands⟩ | hsame
  · exact ⟨new, hstands, (hold node hnode).2⟩
  · rw [hnode, Option.map_some] at hsame
    obtain ⟨node', hnode', hown⟩ := Option.map_eq_some_iff.mp hsame
    refine ⟨node', hnode', ?_⟩
    rw [← kind_own, hown, kind_own]

end Node

/-! ### Following a path -/

/-- What becomes of a stop when the tree has grown to `tree'`: links stay, what was found is still
found, and so is what was missing if it is there now. -/
inductive Stop.Becomes (tree' : Node) : Stop → Stop → Prop where
  | link (directory : List String) (target : String) (rest : List String) :
    Becomes tree' (.link directory target rest) (.link directory target rest)
  | found {place : List String} {node' : Node} (node : Node) (h : tree'.at? place = some node') :
    Becomes tree' (.target (.found place node)) (.target (.found place node'))
  | missing {directory : List String} {name : String} {node' : Node}
    (h : tree'.at? (directory ++ [name]) = some node') (hlink : ∀ target, node' ≠ .link target) :
    Becomes tree' (.target (.missing directory name))
      (.target (.found (directory ++ [name]) node'))

/-- Pieces lead to the same stop in a tree that has grown.  One case for each step; the steps
before the last one see only kinds of nodes. -/
lemma followToLink_of_becomes {tree tree' : Node} (hgrow : tree.GrowsTo tree') {asLink : Bool}
    {here pieces : List String} {stop stop' : Stop} (hstop : stop.Becomes tree' stop')
    (h : followToLink tree asLink here pieces = .ok stop) :
    followToLink tree' asLink here pieces = .ok stop' := by
  fun_induction followToLink tree asLink here pieces with
  | case1 here node hnode =>
    cases h
    cases hstop with | found _ hnode' =>
    rw [followToLink, hnode']
  | case3 here piece rest hstays ih =>
    rw [followToLink, if_pos hstays]
    exact ih h
  | case4 here rest hstays ih =>
    rw [followToLink, if_neg hstays, if_pos rfl]
    exact ih h
  -- the name that was missing: it is found now, unless a link stands there
  | case6 here piece rest hstays hup hlong hnone hlast =>
    cases h
    cases hstop with | @missing _ _ node' hnode' hlink =>
    rw [followToLink, if_neg hstays, if_neg hup, if_neg hlong, Node.bind_child?_eq_at?, hnode']
    cases node' with
    | link target => exact absurd rfl (hlink target)
    | file content => exact if_pos hlast
    | dir entries =>
      obtain rfl := List.isEmpty_iff.mp hlast
      simp only [followToLink, hnode']
  -- a directory is still one, with other entries perhaps
  | case8 here piece rest hstays hup hlong entries hdir ih =>
    rw [Node.bind_child?_eq_at?] at hdir
    obtain ⟨entries', hdir'⟩ := hgrow.at?_dir hdir
    rw [followToLink, if_neg hstays, if_neg hup, if_neg hlong, Node.bind_child?_eq_at?, hdir']
    exact ih h
  -- links are kept with their targets, whether they are found (here) or followed (next case)
  | case9 here piece rest hstays hup hlong target hlink hlast =>
    cases h
    cases hstop with | found _ hnode' =>
    rw [Node.bind_child?_eq_at?] at hlink
    rw [hgrow.at?_link hlink, Option.some.injEq] at hnode'
    subst hnode'
    rw [followToLink, if_neg hstays, if_neg hup, if_neg hlong, Node.bind_child?_eq_at?,
      hgrow.at?_link hlink]
    exact if_pos hlast
  | case10 here piece rest hstays hup hlong target hlink hlast =>
    cases h
    cases hstop
    rw [Node.bind_child?_eq_at?] at hlink
    rw [followToLink, if_neg hstays, if_neg hup, if_neg hlong, Node.bind_child?_eq_at?,
      hgrow.at?_link hlink]
    exact if_neg hlast
  | case11 here piece rest hstays hup hlong old hold hlast =>
    cases h
    cases hstop with | found _ hnode' =>
    rw [Node.bind_child?_eq_at?] at hold
    obtain ⟨content, hcontent⟩ := hgrow.at?_file hold
    rw [hcontent, Option.some.injEq] at hnode'
    subst hnode'
    rw [followToLink, if_neg hstays, if_neg hup, if_neg hlong, Node.bind_child?_eq_at?, hcontent]
    exact if_pos hlast
  | case2 | case5 | case7 | case12 => cases h

lemma follow_of_becomes {tree tree' : Node} (hgrow : tree.GrowsTo tree') {asLink : Bool}
    {links : Nat} {here pieces : List String} {t t' : Target}
    (ht : (Stop.target t).Becomes tree' (.target t'))
    (h : follow tree asLink links here pieces = .ok t) :
    follow tree' asLink links here pieces = .ok t' := by
  rw [follow_eq] at h ⊢
  obtain ⟨stop, hstop, h⟩ := exists_of_bind_eq_ok h
  rcases stop with t₀ | ⟨directory, target, rest⟩
  · cases h
    rw [followToLink_of_becomes hgrow ht hstop]
    rfl
  · rw [followToLink_of_becomes hgrow (.link directory target rest) hstop]
    cases links with
    | zero => exact nomatch h
    | succ links => exact follow_of_becomes hgrow ht h

/-! ### Disks -/

/-- The disk is the other one with a tree that has grown. -/
structure GrowsTo (d d' : Disk) : Prop where
  tree : d.tree.GrowsTo d'.tree
  workingPlace : d'.workingPlace = d.workingPlace

variable {d d' : Disk} {path : String} {asLink : Bool}

lemma GrowsTo.refl (d : Disk) : d.GrowsTo d := ⟨fun _ node hnode => ⟨node, hnode, rfl⟩, rfl⟩

lemma GrowsTo.trans {d'' : Disk} (h : d.GrowsTo d') (h' : d'.GrowsTo d'') : d.GrowsTo d'' := by
  refine ⟨fun place node hnode => ?_, h'.workingPlace.trans h.workingPlace⟩
  obtain ⟨node', hnode', hkind⟩ := h.tree place node hnode
  obtain ⟨node'', hnode'', hkind'⟩ := h'.tree place node' hnode'
  exact ⟨node'', hnode'', hkind'.trans hkind⟩

/-- **A path leads to the same place** on a disk that has grown. -/
lemma GrowsTo.target_eq (h : d.GrowsTo d') {t t' : Target}
    (ht : (Stop.target t).Becomes d'.tree (.target t')) (htarget : d.target path asLink = .ok t) :
    d'.target path asLink = .ok t' := by
  unfold target at htarget ⊢
  split at htarget
  · exact nomatch htarget
  split at htarget
  · exact nomatch htarget
  split at htarget
  · exact nomatch htarget
  next hempty hzero hlong =>
    rw [if_neg hempty, if_neg hzero, if_neg hlong, h.workingPlace]
    exact follow_of_becomes h.tree ht htarget

lemma GrowsTo.isDir (h : d.GrowsTo d') (hdir : d.isDir path = true) : d'.isDir path = true := by
  unfold Disk.isDir node at hdir ⊢
  rcases htarget : d.target path false with error | (⟨place, node⟩ | ⟨directory, name⟩)
  · simp [htarget, bind, Except.bind] at hdir
  · obtain ⟨node', hnode', hkind⟩ := h.tree place node (fits_of_target htarget)
    rw [h.target_eq (.found node hnode') htarget]
    cases node with
    | file | link => simp [htarget, bind, Except.bind, Node.isDir] at hdir
    | dir entries =>
      obtain ⟨entries', rfl⟩ := Node.eq_dir_of_kind_eq hkind
      rfl
  · simp [htarget, bind, Except.bind] at hdir

lemma growsTo_put_of_missing {directory : List String} {name : String}
    (h : d.target path asLink = .ok (.missing directory name)) {new : Node} (hnew : new.IsBare) :
    d.GrowsTo (d.put (directory ++ [name]) new) := by
  refine ⟨Node.growsTo_put (fun old hold => ?_) hnew, rfl⟩
  have hnone : d.tree.at? (directory ++ [name]) = none := fits_of_target h
  rw [hnone] at hold
  exact nomatch hold

lemma growsTo_of_makeDir (h : d.makeDir path = .ok d') : d.GrowsTo d' := by
  obtain ⟨directory, name, htarget, rfl⟩ := exists_of_makeDir_eq_ok h
  exact growsTo_put_of_missing htarget Node.isBare_emptyDir

lemma growsTo_of_write {content : ByteArray} (h : d.write path content = .ok d') :
    d.GrowsTo d' := by
  obtain ⟨place, t, htarget, rfl, ⟨old, rfl⟩ | ⟨directory, name, rfl, rfl⟩⟩ :=
    exists_of_write_eq_ok h
  · refine ⟨Node.growsTo_put (fun node hnode => ?_) (Node.isBare_file content), rfl⟩
    have hold : d.tree.at? place = some (.file old) := fits_of_target htarget
    rw [hold] at hnode
    cases hnode
    exact ⟨Node.isBare_file old, rfl⟩
  · exact growsTo_put_of_missing htarget (Node.isBare_file content)

end SheetLint.Disk
