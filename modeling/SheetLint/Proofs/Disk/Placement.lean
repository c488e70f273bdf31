import SheetLint.Proofs.Disk.Writing
import SheetLint.Proofs.Path.Inside

/-!
# The same tree in two places

A tree can stand below different directories, of one disk or of two.  All that paths tell of it is
what they lead to, and `SameBelow` says that paths below two directories lead to the same nodes,
whether or not a link in the last place is followed.

A tree without links is the same wherever it is placed, as long as no path into it is too long:
`sameBelow_of_holds`.  Two things could come in between.  A link on the way may lead anywhere, hence
`IsFreeOfLinks`.  And the system refuses paths and names beyond its limits, hence `IsWithinLimits`,
which is asked only of paths at which something stands: where nothing does, a path that is refused
finds nothing either.

Paths are spelled from the root directory, one name behind the other; that such a spelling is
followed along its names is `followToLink_piecesOf_below`.
-/

namespace SheetLint.Disk

open SheetLint.Path (below IsName IsProperName)

/-- The paths below two directories lead to the same nodes. -/
structure SameBelow (d : Disk) (dir : String) (d' : Disk) (dir' : String) : Prop where
  entry : ∀ names, (∀ name ∈ names, IsProperName name) →
    (d.entry (below dir names)).toOption = (d'.entry (below dir' names)).toOption
  node : ∀ names, (∀ name ∈ names, IsProperName name) →
    (d.node (below dir names)).toOption = (d'.node (below dir' names)).toOption

/-! ### Following names -/

/-- The node that has been found. -/
def Target.node? : Target → Option Node
  | .found _ node => some node
  | .missing .. => none

/-- No link is on the way along the names, and none at its end. -/
def IsFreeOfLinks (tree : Node) (here names : List String) : Prop :=
  ∀ front, front <+: names → front ≠ [] → ∀ target, tree.at? (here ++ front) ≠ some (.link target)

/-- **Following names without links.**  They lead to the node that stands there. -/
lemma followToLink_names {tree : Node} {asLink : Bool} {here names : List String}
    (hnames : ∀ name ∈ names, IsProperName name) (hlinks : IsFreeOfLinks tree here names)
    (hsize : tree.at? (here ++ names) ≠ none → ∀ name ∈ names, name.utf8ByteSize ≤ nameLimit) :
    ∃ answer : Except SystemError Target,
      followToLink tree asLink here names = answer.map .target ∧
      answer.toOption.bind Target.node? = tree.at? (here ++ names) := by
  induction names generalizing here with
  | nil =>
    rw [List.append_nil, followToLink]
    cases hnode : tree.at? here with
    | none => exact ⟨.error .notFound, rfl, rfl⟩
    | some node => exact ⟨.ok (.found here node), rfl, rfl⟩
  | cons name rest ih =>
    obtain ⟨hname, hrest⟩ := List.forall_mem_cons.mp hnames
    have hsplit : here ++ name :: rest = here ++ [name] ++ rest := by simp
    have hchild := Node.bind_child?_eq_at? tree here name
    have hstays : ¬ (name = "" ∨ name = ".") := not_or.mpr ⟨hname.isName.1, hname.ne_here⟩
    rw [followToLink, if_neg hstays, if_neg hname.ne_up, hchild]
    by_cases hlong : nameLimit < name.utf8ByteSize
    · refine ⟨.error .nameTooLong, if_pos hlong, ?_⟩
      -- something stands at the end of the names, so none of them can be too long
      by_contra hsome
      exact Nat.not_lt.mpr (hsize (Ne.symm hsome) name List.mem_cons_self) hlong
    rw [if_neg hlong, hsplit]
    rw [hsplit] at hsize
    cases hnode : tree.at? (here ++ [name]) with
    | none =>
      have hnone : tree.at? (here ++ [name] ++ rest) = none := by
        rw [Node.at?_append, hnode]
        rfl
      rw [hnone]
      cases rest with
      | nil => exact ⟨.ok (.missing here name), rfl, rfl⟩
      | cons next rest => exact ⟨.error .notFound, rfl, rfl⟩
    | some node =>
      cases node with
      -- only a directory is gone through; a link is excluded, and behind a file there is nothing
      | dir entries =>
        refine ih hrest (fun front hfront hne target => ?_) fun hsome n hn =>
          hsize hsome n (List.mem_cons_of_mem name hn)
        rw [List.append_assoc]
        exact hlinks (name :: front) (List.cons_prefix_cons.mpr ⟨rfl, hfront⟩)
          (List.cons_ne_nil _ _) target
      | link target =>
        exact absurd hnode (hlinks [name] (List.cons_prefix_cons.mpr ⟨rfl, List.nil_prefix⟩)
          (List.cons_ne_nil _ _) target)
      | file content =>
        cases rest with
        | nil =>
          rw [List.append_nil, hnode]
          exact ⟨.ok (.found (here ++ [name]) (.file content)), rfl, rfl⟩
        | cons next rest =>
          rw [Node.at?_append, hnode, Option.bind_some, Node.at?_cons_of_not_isDir rfl]
          exact ⟨.error .notADirectory, rfl, rfl⟩

/-- The system can be asked for a path of these names.  It has a limit for the path and one for each
name. -/
structure IsWithinLimits (names : List String) : Prop where
  zero : '\x00' ∉ (below "/" names).toList
  path : (below "/" names).utf8ByteSize ≤ pathLimit
  name : ∀ name ∈ names, name.utf8ByteSize ≤ nameLimit

/-- The pieces of a path of names lead where the names lead. -/
lemma followToLink_piecesOf_below (tree : Node) (asLink : Bool) {names : List String}
    (hnames : ∀ name ∈ names, IsName name) :
    followToLink tree asLink [] (piecesOf (below "/" names)) =
      followToLink tree asLink [] names := by
  by_cases hnil : names = []
  · subst hnil
    have hpieces : piecesOf (below "/" []) = ["", ""] := by decide
    rw [hpieces]
    rfl
  · have hpieces : piecesOf (below "/" names) = "" :: names := by
      rw [piecesOf, Path.pieces_below hnames hnil, List.map_cons, List.map_map]
      congr 1
      exact List.map_id'' (fun name => String.ofList_toList) names
    rw [hpieces, followToLink, if_pos (Or.inl rfl)]

/-- **A path of names without links** leads to the node that stands there. -/
lemma target_below {d : Disk} {names : List String} (hnames : ∀ name ∈ names, IsProperName name)
    (hlinks : IsFreeOfLinks d.tree [] names)
    (hlimits : d.tree.at? names ≠ none → IsWithinLimits names) (asLink : Bool) :
    (d.target (below "/" names) asLink).toOption.bind Target.node? = d.tree.at? names := by
  have hne : (below "/" names).isEmpty = false := by
    obtain ⟨inner, hinner⟩ := Path.exists_toList_eq_cons
      (Path.isAbsolute_below (by decide : Path.isAbsolute "/" = true) names)
    rw [Bool.eq_false_iff, ne_eq, String.isEmpty_iff]
    rintro hempty
    rw [hempty] at hinner
    exact nomatch hinner
  unfold target
  rw [if_neg (by simp [hne])]
  by_cases hzero : (below "/" names).toList.contains '\x00' = true
  · rw [if_pos hzero]
    by_contra hsome
    exact (hlimits (Ne.symm hsome)).zero (List.contains_iff_mem.mp hzero)
  rw [if_neg hzero]
  by_cases hlong : pathLimit < (below "/" names).utf8ByteSize
  · rw [if_pos hlong]
    by_contra hsome
    exact Nat.not_lt.mpr (hlimits (Ne.symm hsome)).path hlong
  rw [if_neg hlong, if_pos (Path.isAbsolute_below (by decide) names)]
  -- Nothing is refused any more, so only the names are left to follow.
  have hlead : ∃ answer : Except SystemError Target,
      followToLink d.tree asLink [] names = answer.map .target ∧
        answer.toOption.bind Target.node? = d.tree.at? names :=
    followToLink_names hnames hlinks fun hsome => (hlimits hsome).name
  obtain ⟨answer, hanswer, hnode⟩ := hlead
  rw [follow_eq, followToLink_piecesOf_below d.tree asLink
    (Path.isName_of_isProperName hnames), hanswer, ← hnode]
  cases answer <;> rfl

lemma entry_below {d : Disk} {names : List String} (hnames : ∀ name ∈ names, IsProperName name)
    (hlinks : IsFreeOfLinks d.tree [] names)
    (hlimits : d.tree.at? names ≠ none → IsWithinLimits names) :
    (d.entry (below "/" names)).toOption = d.tree.at? names ∧
      (d.node (below "/" names)).toOption = d.tree.at? names := by
  have hfound (asLink : Bool) := target_below hnames hlinks hlimits asLink
  unfold entry node
  refine ⟨(?_ : _ = _).trans (hfound true), (?_ : _ = _).trans (hfound false)⟩ <;>
  · rcases d.target (below "/" names) _ with error | place | directory <;> rfl

/-! ### A tree without links -/

/-- The tree stands at a place, within the limits of the system. -/
structure Holds (d : Disk) (place : List String) (tree : Node) : Prop where
  at? : d.tree.at? place = some tree
  isProperName : ∀ name ∈ place, IsProperName name
  isWithinLimits : ∀ names node, tree.at? names = some node → IsWithinLimits (place ++ names)

/-- Below a place where a tree without links stands there is no link, and none leads there. -/
lemma Holds.isFreeOfLinks {d : Disk} {place : List String} {tree : Node} (h : d.Holds place tree)
    (hlinks : ∀ names target, tree.at? names ≠ some (.link target)) (names : List String) :
    IsFreeOfLinks d.tree [] (place ++ names) := by
  rintro front hfront - target hlink
  rw [List.nil_append] at hlink
  have hplace := h.at?
  rcases List.prefix_or_prefix_of_prefix hfront (List.prefix_append place names) with
    ⟨rest, rfl⟩ | ⟨inner, rfl⟩
  · rw [Node.at?_append, hlink, Option.bind_some] at hplace
    cases rest with
    | nil => exact hlinks [] target (Option.some.inj hplace ▸ rfl)
    | cons name rest =>
      rw [Node.at?_cons_of_not_isDir rfl] at hplace
      exact nomatch hplace
  · rw [Node.at?_append, hplace, Option.bind_some] at hlink
    exact hlinks inner target hlink

lemma Holds.entry_below {d : Disk} {place : List String} {tree : Node} (h : d.Holds place tree)
    (hlinks : ∀ names target, tree.at? names ≠ some (.link target)) {names : List String}
    (hnames : ∀ name ∈ names, IsProperName name) :
    (d.entry (below (below "/" place) names)).toOption = tree.at? names ∧
      (d.node (below (below "/" place) names)).toOption = tree.at? names := by
  have hat : d.tree.at? (place ++ names) = tree.at? names := by
    rw [Node.at?_append, h.at?, Option.bind_some]
  rw [← Path.below_append, ← hat]
  refine Disk.entry_below ?_ (h.isFreeOfLinks hlinks names) ?_
  · intro name hname
    exact (List.mem_append.mp hname).elim (h.isProperName name) (hnames name)
  · intro hsome
    obtain ⟨node, hnode⟩ := Option.ne_none_iff_exists'.mp hsome
    exact h.isWithinLimits names node (hat ▸ hnode)

/-- **A tree without links is the same wherever it is placed.** -/
theorem sameBelow_of_holds {d d' : Disk} {place place' : List String} {tree : Node}
    (h : d.Holds place tree) (h' : d'.Holds place' tree)
    (hlinks : ∀ names target, tree.at? names ≠ some (.link target)) :
    SameBelow d (below "/" place) d' (below "/" place') where
  entry _ hnames :=
    (h.entry_below hlinks hnames).1.trans (h'.entry_below hlinks hnames).1.symm
  node _ hnames :=
    (h.entry_below hlinks hnames).2.trans (h'.entry_below hlinks hnames).2.symm

end SheetLint.Disk
