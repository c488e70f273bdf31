import SheetLint.Disk
import SheetLint.Proofs.Except
import SheetLint.Proofs.Keyed
import SheetLint.Proofs.Path.Names

/-!
# Trees of files

In the tree of a file system the entries of each directory are sorted by their names, and a name is
not empty and has no slash (`Disk.Node.IsTree`).  So an entry is found under its name, every entry
is, and what stands below a node is a tree again.

What `followToLink` and `follow` come to is told in terms of the tree.  A node that is found stands
at its place, and nothing stands where a name is missing (`fits_of_target`).  Pieces that lead
nowhere, which are empty ones and `.`, can be left out in front of others (`follow_filter_leads`);
behind the last name they cannot, since there they ask for a directory.

Looking a path up with and without following a link in the last place gives the same node unless a
link stands there (`target_true_cases`).
-/

namespace SheetLint

namespace Disk

namespace Node

/-- **The tree of a file system.**  In each of its directories the entries are sorted by their
names. -/
def IsTree (n : Node) : Prop :=
  ∀ place entries, n.at? place = some (.dir entries) →
    Keyed.Sorted entries ∧ ∀ entry ∈ entries, Path.IsName entry.1

lemma at?_append (n : Node) (front back : List String) :
    n.at? (front ++ back) = (n.at? front).bind (·.at? back) := by
  induction front generalizing n with
  | nil => rfl
  | cons name front ih =>
    rw [List.cons_append, at?, at?]
    cases n.child? name with
    | none => rfl
    | some child => exact ih child

lemma bind_child?_eq_at? (tree : Node) (here : List String) (name : String) :
    (tree.at? here).bind (·.child? name) = tree.at? (here ++ [name]) := by
  rw [at?_append]
  congr 1
  funext n
  rw [at?]
  cases n.child? name <;> rfl

lemma IsTree.at? {n m : Node} (h : n.IsTree) {place : List String} (hm : n.at? place = some m) :
    m.IsTree := by
  intro inner entries hentries
  refine h (place ++ inner) entries ?_
  rw [at?_append, hm]
  exact hentries

lemma IsTree.sorted {entries : List (String × Node)} (h : (dir entries).IsTree) :
    Keyed.Sorted entries :=
  (h [] entries rfl).1

lemma IsTree.mem_entries_iff {entries : List (String × Node)} (h : (dir entries).IsTree)
    (name : String) (node : Node) :
    (name, node) ∈ entries ↔ (dir entries).child? name = some node :=
  (Keyed.find?_eq_some_iff h.sorted name node).symm

lemma IsTree.child {entries : List (String × Node)} (h : (dir entries).IsTree)
    {entry : String × Node} (hmem : entry ∈ entries) :
    (dir entries).child? entry.1 = some entry.2 ∧ entry.2.IsTree := by
  have hchild := (h.mem_entries_iff entry.1 entry.2).mp hmem
  refine ⟨hchild, IsTree.at? h (?_ : (dir entries).at? [entry.1] = some entry.2)⟩
  rw [Node.at?, hchild]
  rfl

lemma isTree_dir {entries : List (String × Node)} (hsorted : Keyed.Sorted entries)
    (hentries : ∀ entry ∈ entries, Path.IsName entry.1 ∧ entry.2.IsTree) :
    (dir entries).IsTree := by
  intro place inner hinner
  cases place with
  | nil =>
    cases hinner
    exact ⟨hsorted, fun entry hentry => (hentries entry hentry).1⟩
  | cons name rest =>
    rw [Node.at?, Option.bind_eq_some_iff] at hinner
    obtain ⟨child, hchild, hinner⟩ := hinner
    have hmem := (Keyed.find?_eq_some_iff hsorted name child).mp hchild
    exact (hentries (name, child) hmem).2 rest inner hinner

lemma isTree_emptyDir : emptyDir.IsTree :=
  isTree_dir List.Pairwise.nil fun _ hentry => nomatch hentry

lemma isTree_file (content : ByteArray) : (file content).IsTree := by
  intro place entries h
  cases place with
  | nil => exact nomatch h
  | cons name rest => exact nomatch h

lemma isTree_link (target : String) : (link target).IsTree := by
  intro place entries h
  cases place with
  | nil => exact nomatch h
  | cons name rest => exact nomatch h

lemma at?_cons_of_not_isDir {n : Node} (h : n.isDir = false) (name : String)
    (rest : List String) : n.at? (name :: rest) = none := by
  cases n with
  | file | link => rfl
  | dir => exact nomatch h

end Node

/-- **A file system.**  Its root is a directory, the root of a tree. -/
structure IsFileSystem (d : Disk) : Prop where
  isDir : d.tree.isDir = true
  isTree : d.tree.IsTree

/-! ### Looking up a path -/

lemma follow_eq (tree : Node) (asLink : Bool) (links : Nat) (here pieces : List String) :
    follow tree asLink links here pieces =
      (followToLink tree asLink here pieces).bind fun
        | .target t => .ok t
        | .link directory target rest =>
          match links with
          | 0 => .error .tooManyLinks
          | links + 1 =>
            follow tree asLink links (if target.toList.head? = some '/' then [] else directory)
              (piecesOf target ++ rest) := by
  cases links with
  | zero =>
    conv => lhs; unfold follow
    rcases followToLink tree asLink here pieces with _ | _ | _ <;> rfl
  | succ links =>
    conv => lhs; unfold follow
    rcases followToLink tree asLink here pieces with _ | _ | _ <;> rfl

/-- The stop tells what stands in the tree. -/
def Stop.Fits (tree : Node) : Stop → Prop
  | .target (.found place node) => tree.at? place = some node
  | .target (.missing directory name) => tree.at? (directory ++ [name]) = none
  | .link .. => True

/-- What following pieces finds stands in the tree, and what it misses does not. -/
lemma fits_of_followToLink {tree : Node} {asLink : Bool} {here pieces : List String} {stop : Stop}
    (h : followToLink tree asLink here pieces = .ok stop) : stop.Fits tree := by
  fun_induction followToLink tree asLink here pieces with
  | case1 here node hnode =>
    cases h
    exact hnode
  | case3 _ _ _ _ ih => exact ih h
  | case4 _ _ _ ih => exact ih h
  | case6 here piece _ _ _ _ hnone _ =>
    cases h
    exact (Node.bind_child?_eq_at? tree here piece).symm.trans hnone
  | case8 _ _ _ _ _ _ _ _ ih => exact ih h
  | case9 here piece rest _ _ _ target hlink _ =>
    cases h
    exact (Node.bind_child?_eq_at? tree here piece).symm.trans hlink
  | case10 =>
    cases h
    trivial
  | case11 here piece rest _ _ _ content hcontent _ =>
    cases h
    exact (Node.bind_child?_eq_at? tree here piece).symm.trans hcontent
  | case2 | case5 | case7 | case12 => exact nomatch h

lemma fits_of_follow {tree : Node} {asLink : Bool} {links : Nat} {here pieces : List String}
    {t : Target} (h : follow tree asLink links here pieces = .ok t) :
    (Stop.target t).Fits tree := by
  rw [follow_eq] at h
  rcases hstop : followToLink tree asLink here pieces with error | t' | ⟨directory, target, rest⟩
  · rw [hstop] at h
    exact nomatch h
  · rw [hstop] at h
    cases h
    exact fits_of_followToLink hstop
  · rw [hstop] at h
    cases links with
    | zero => exact nomatch h
    | succ links => exact fits_of_follow h

/-- Whether a piece leads somewhere else. -/
def leads (piece : String) : Bool := piece != "" && piece != "."

/-- The pieces that lead somewhere are those that name a step. -/
lemma filter_leads_map (pieces : List (List Char)) :
    (pieces.map String.ofList).filter leads = (pieces.filter Path.isStep).map String.ofList := by
  have hleads : leads ∘ String.ofList = Path.isStep := by
    funext piece
    have hiff (text : List Char) : (String.ofList piece = String.ofList text) = (piece = text) :=
      propext ⟨fun h => String.ofList_injective h, congrArg String.ofList⟩
    show (String.ofList piece != String.ofList [] && String.ofList piece != String.ofList ['.']) = _
    simp only [Path.isStep, bne, beq_eq_decide, hiff]
  rw [List.filter_map, hleads]

/-- **Pieces that lead nowhere can be left out**, in front of pieces that are kept.  The induction
is on the links, and within it on the pieces in front. -/
lemma follow_filter_leads (tree : Node) (asLink : Bool) (links : Nat) (here front : List String)
    {rest : List String} (hrest : rest ≠ []) :
    follow tree asLink links here (front ++ rest) =
      follow tree asLink links here (front.filter leads ++ rest) := by
  induction links using Nat.strong_induction_on generalizing here front with
  | _ links ihLinks =>
  induction front generalizing here with
  | nil => rfl
  | cons piece front ih =>
    have hempty (pieces : List String) : (pieces ++ rest).isEmpty = false := by
      simp [hrest]
    by_cases hstays : piece = "" ∨ piece = "."
    · have hleads : leads piece = false := by
        rcases hstays with rfl | rfl <;> rfl
      rw [List.filter_cons_of_neg (by simp [hleads]), ← ih, List.cons_append, follow_eq,
        followToLink, if_pos hstays, ← follow_eq]
    · have hleads : leads piece = true := by simpa [leads] using hstays
      rw [List.filter_cons_of_pos hleads, List.cons_append, List.cons_append, follow_eq,
        follow_eq tree asLink links here (piece :: _), followToLink, followToLink]
      simp only [if_neg hstays]
      by_cases hup : piece = ".."
      · simp only [if_pos hup]
        rw [← follow_eq, ← follow_eq]
        exact ih here.dropLast
      simp only [if_neg hup]
      by_cases hlong : nameLimit < piece.utf8ByteSize
      · simp only [if_pos hlong]
      simp only [if_neg hlong]
      -- Only a link and a directory are gone through. The target of a link stands in front of the
      -- pieces that are left, so there the induction on links is used, with a longer front.
      rcases (tree.at? here).bind (·.child? piece) with _ | (content | target | entries)
      · simp only [hempty]
      · simp only [hempty]
      · simp only [hempty, Bool.false_eq_true, false_and, if_false]
        cases links with
        | zero => rfl
        | succ links =>
          show follow tree asLink links _ (piecesOf target ++ (front ++ rest)) =
            follow tree asLink links _ (piecesOf target ++ (front.filter leads ++ rest))
          -- the target's pieces are filtered too, on both sides
          rw [← List.append_assoc, ← List.append_assoc, ihLinks links (Nat.lt_succ_self links),
            ihLinks links (Nat.lt_succ_self links) _ (piecesOf target ++ front.filter leads),
            List.filter_append, List.filter_append, List.filter_filter]
          simp only [Bool.and_self]
      · rw [← follow_eq, ← follow_eq]
        exact ih (here ++ [piece])

/-- Asking for a link itself makes a difference only where a link is found. -/
lemma followToLink_cases (tree : Node) (here pieces : List String) :
    (∃ place target,
      followToLink tree true here pieces = .ok (.target (.found place (.link target)))) ∨
      followToLink tree true here pieces = followToLink tree false here pieces := by
  induction pieces generalizing here with
  | nil => exact Or.inr rfl
  | cons piece rest ih =>
    unfold followToLink
    by_cases hstays : piece = "" ∨ piece = "."
    · simp only [if_pos hstays]
      exact ih here
    by_cases hup : piece = ".."
    · simp only [if_neg hstays, if_pos hup]
      exact ih here.dropLast
    by_cases hlong : nameLimit < piece.utf8ByteSize
    · simp only [if_neg hstays, if_neg hup, if_pos hlong]
      exact Or.inr trivial
    simp only [if_neg hstays, if_neg hup, if_neg hlong]
    rcases (tree.at? here).bind (·.child? piece) with _ | (content | target | entries)
    · exact Or.inr rfl
    · exact Or.inr rfl
    -- `asLink` is asked for here only, at a link without pieces behind it
    · by_cases hlast : rest.isEmpty = true
      · simp only [hlast]
        exact Or.inl ⟨_, _, rfl⟩
      · simp only [hlast]
        exact Or.inr rfl
    · exact ih (here ++ [piece])

lemma follow_cases (tree : Node) (links : Nat) (here pieces : List String) :
    (∃ place target, follow tree true links here pieces = .ok (.found place (.link target))) ∨
      follow tree true links here pieces = follow tree false links here pieces := by
  rw [follow_eq, follow_eq tree false]
  rcases followToLink_cases tree here pieces with ⟨place, target, hlink⟩ | heq
  · left
    rw [hlink]
    exact ⟨place, target, rfl⟩
  · rw [heq]
    rcases followToLink tree false here pieces with error | t | ⟨directory, target, rest⟩
    · exact Or.inr rfl
    · exact Or.inr rfl
    · cases links with
      | zero => exact Or.inr rfl
      | succ links => exact follow_cases tree links _ _

lemma target_cases (d : Disk) (path : String) :
    (∃ error, ∀ asLink, d.target path asLink = .error error) ∨
      ∃ here pieces, ∀ asLink,
        d.target path asLink = follow d.tree asLink linkLimit here pieces := by
  unfold target
  by_cases hempty : path.isEmpty = true
  · simp only [hempty, if_true]
    exact Or.inl ⟨_, fun _ => rfl⟩
  by_cases hzero : path.toList.contains '\x00' = true
  · simp only [hempty, hzero, if_true]
    exact Or.inl ⟨_, fun _ => rfl⟩
  by_cases hlong : pathLimit < path.utf8ByteSize
  · simp only [hempty, hzero, hlong, if_true]
    exact Or.inl ⟨_, fun _ => rfl⟩
  · simp only [hempty, hzero, hlong, if_false]
    exact Or.inr ⟨_, _, fun _ => rfl⟩

lemma fits_of_target {d : Disk} {path : String} {asLink : Bool} {t : Target}
    (h : d.target path asLink = .ok t) : (Stop.target t).Fits d.tree := by
  rcases target_cases d path with ⟨error, htarget⟩ | ⟨here, pieces, htarget⟩
  · rw [htarget] at h
    exact nomatch h
  · rw [htarget] at h
    exact fits_of_follow h

lemma target_true_cases (d : Disk) (path : String) :
    (∃ place target, d.target path true = .ok (.found place (.link target))) ∨
      d.target path true = d.target path false := by
  rcases target_cases d path with ⟨error, htarget⟩ | ⟨here, pieces, htarget⟩
  · exact Or.inr (by rw [htarget, htarget])
  · rw [htarget, htarget]
    exact follow_cases d.tree linkLimit here pieces

lemma entry_cases (d : Disk) (path : String) :
    (∃ target, d.entry path = .ok (.link target)) ∨ d.entry path = d.node path := by
  unfold entry node
  rcases target_true_cases d path with ⟨place, target, hlink⟩ | heq
  · rw [hlink]
    exact Or.inl ⟨target, rfl⟩
  · rw [heq]
    exact Or.inr rfl

lemma exists_at?_of_node {d : Disk} {path : String} {n : Node} (h : d.node path = .ok n) :
    ∃ place, d.tree.at? place = some n := by
  unfold node at h
  obtain ⟨t, htarget, h⟩ := exists_of_bind_eq_ok h
  cases t with
  | found place node =>
    cases h
    exact ⟨place, fits_of_target htarget⟩
  | missing => exact nomatch h

lemma exists_target_of_read {d : Disk} {path : String} {content : ByteArray}
    (h : d.read path = .ok content) :
    ∃ place, d.target path false = .ok (.found place (.file content)) := by
  unfold read node at h
  obtain ⟨node, hnode, h⟩ := exists_of_bind_eq_ok h
  obtain ⟨t, htarget, hnode⟩ := exists_of_bind_eq_ok hnode
  cases t with
  | missing => cases hnode
  | found place found =>
    cases hnode
    cases node with
    | link | dir => cases h
    | file =>
      cases h
      exact ⟨place, htarget⟩

lemma entry_root (d : Disk) : d.entry "/" = .ok d.tree := by
  have hpieces : piecesOf "/" = ["", ""] := by decide
  have htarget : d.target "/" true = .ok (.found [] d.tree) := by
    unfold target
    rw [if_neg (by decide), if_neg (by decide), if_neg (by decide), if_pos (by decide), hpieces,
      follow_eq, followToLink, if_pos (Or.inl rfl), followToLink, if_pos (Or.inl rfl)]
    rfl
  unfold entry
  rw [htarget]
  rfl

end Disk

end SheetLint
