import SheetLint.Inputs
import SheetLint.Proofs.Disk.Tree

/-!
# What a walk comes to

A walk spells the path of each file while it goes down.  Seen from its root the files are lists of
names (`walk_eq_map_places`): those of the files below the root to which every step is admitted
(`mem_places_iff`), in the order of the names compared by their bytes (`pairwise_places`).

A sorted list is known by its members.  So to compare two walks it is enough to say which places
each of them comes to, and in what order they come needs no further word.  For walks through the
same tree below two paths, where the same steps are admitted, `places_congr` says that directly.

Whether a step is admitted may depend on the name, the path and the node, and is left open here.
-/

namespace SheetLint

open Disk (Node)

section

variable (admits : String → String → Node → Bool)

mutual

/-- The files that a walk comes to, as the names that lead to them. -/
def places (path : String) : Node → List (List String)
  | .file _ => [[]]
  | .link _ => []
  | .dir entries => placesIn path entries

/-- The files that a walk through entries comes to, as the names that lead to them. -/
def placesIn (path : String) : List (String × Node) → List (List String)
  | [] => []
  | (name, node) :: rest =>
    (if admits name (Path.join path name) node then
      (places (Path.join path name) node).map (name :: ·) else []) ++ placesIn path rest

end

mutual

lemma walk_eq_map_places (path : String) (node : Node) :
    walk admits path node = (places admits path node).map (Path.below path) := by
  cases node with
  | file content => rfl
  | link target => rfl
  | dir entries =>
    rw [walk, places]
    exact walkEntries_eq_map_placesIn path entries

lemma walkEntries_eq_map_placesIn (path : String) (entries : List (String × Node)) :
    walkEntries admits path entries = (placesIn admits path entries).map (Path.below path) := by
  cases entries with
  | nil => rfl
  | cons entry rest =>
    obtain ⟨name, node⟩ := entry
    rw [walkEntries, placesIn, List.map_append, walkEntries_eq_map_placesIn path rest]
    congr 1
    split
    · rw [walk_eq_map_places (Path.join path name) node, List.map_map]
      rfl
    · rfl

end

/-- Every step of a walk to the place is admitted. -/
def Admitted (path : String) (node : Node) : List String → Prop
  | [] => True
  | name :: rest =>
    ∃ child, node.child? name = some child ∧ admits name (Path.join path name) child = true ∧
      Admitted (Path.join path name) child rest

lemma mem_placesIn_iff (path : String) (entries : List (String × Node)) (place : List String) :
    place ∈ placesIn admits path entries ↔
      ∃ name node rest, (name, node) ∈ entries ∧ place = name :: rest ∧
        admits name (Path.join path name) node = true ∧
        rest ∈ places admits (Path.join path name) node := by
  induction entries with
  | nil => simp [placesIn]
  | cons entry entries ih =>
    obtain ⟨name, node⟩ := entry
    rw [placesIn, List.mem_append, ih]
    constructor
    · rintro (hfirst | ⟨other, child, rest, hmem, hlater⟩)
      · split at hfirst
        · next hadmits =>
          obtain ⟨rest, hrest, rfl⟩ := List.mem_map.mp hfirst
          exact ⟨name, node, rest, List.mem_cons_self, rfl, hadmits, hrest⟩
        · exact nomatch hfirst
      · exact ⟨other, child, rest, List.mem_cons_of_mem _ hmem, hlater⟩
    · rintro ⟨other, child, rest, hmem, rfl, hadmits, hrest⟩
      rcases List.mem_cons.mp hmem with heq | hmem
      · cases heq
        left
        rw [if_pos hadmits]
        exact List.mem_map_of_mem hrest
      · exact Or.inr ⟨other, child, rest, hmem, rfl, hadmits, hrest⟩

/-- **The files of a walk.**  A walk through a tree comes to the files to which every step is
admitted. -/
lemma mem_places_iff {node : Node} (hnode : node.IsTree) (path : String) (place : List String) :
    place ∈ places admits path node ↔
      (∃ content, node.at? place = some (.file content)) ∧ Admitted admits path node place := by
  induction place generalizing node path with
  | nil =>
    cases node with
    | file content => simp [places, Node.at?, Admitted]
    | link target => simp [places, Node.at?]
    | dir entries =>
      rw [places, mem_placesIn_iff]
      simp [Node.at?]
  | cons name rest ih =>
    cases node with
    | file content =>
      have hnone := Node.at?_cons_of_not_isDir (n := .file content) rfl name rest
      simp [places, hnone]
    | link target =>
      have hnone := Node.at?_cons_of_not_isDir (n := .link target) rfl name rest
      simp [places, hnone]
    | dir entries =>
      rw [places, mem_placesIn_iff]
      constructor
      -- names are unique in a directory, so the entry is the one that is found under the name
      · rintro ⟨_, child, _, hmem, heq, hadmits, hrest⟩
        cases heq
        obtain ⟨hchild, htree⟩ := hnode.child hmem
        obtain ⟨⟨content, hcontent⟩, hlater⟩ := (ih htree (Path.join path name)).mp hrest
        refine ⟨⟨content, ?_⟩, child, hchild, hadmits, hlater⟩
        rw [Node.at?, hchild]
        exact hcontent
      · rintro ⟨⟨content, hcontent⟩, child, hchild, hadmits, hlater⟩
        rw [Node.at?, hchild, Option.bind_some] at hcontent
        have hmem := (hnode.mem_entries_iff name child).mpr hchild
        have htree := (hnode.child hmem).2
        exact ⟨name, child, rest, hmem, rfl, hadmits,
          (ih htree (Path.join path name)).mpr ⟨⟨content, hcontent⟩, hlater⟩⟩

/-! ### Walks through the same tree -/

variable {admits} in
mutual

/-- **A walk through the same tree in another place** comes to the same files, if the same entries
are admitted. -/
lemma places_congr {admits' : String → String → Node → Bool} {node : Node} (hnode : node.IsTree)
    {path path' : String}
    (h : ∀ place name child, (∀ n ∈ place ++ [name], Path.IsName n) →
      admits name (Path.below path (place ++ [name])) child =
        admits' name (Path.below path' (place ++ [name])) child) :
    places admits path node = places admits' path' node := by
  cases node with
  | file content => rfl
  | link target => rfl
  | dir entries =>
    rw [places, places]
    refine placesIn_congr (fun entry hentry => ⟨?_, (hnode.child hentry).2⟩) h
    exact (hnode [] entries rfl).2 entry hentry

lemma placesIn_congr {admits' : String → String → Node → Bool} {entries : List (String × Node)}
    (hentries : ∀ entry ∈ entries, Path.IsName entry.1 ∧ entry.2.IsTree) {path path' : String}
    (h : ∀ place name child, (∀ n ∈ place ++ [name], Path.IsName n) →
      admits name (Path.below path (place ++ [name])) child =
        admits' name (Path.below path' (place ++ [name])) child) :
    placesIn admits path entries = placesIn admits' path' entries := by
  cases entries with
  | nil => rfl
  | cons entry rest =>
    obtain ⟨name, node⟩ := entry
    obtain ⟨hname, hnode⟩ := hentries (name, node) List.mem_cons_self
    have hadmits :
        admits name (Path.join path name) node = admits' name (Path.join path' name) node :=
      h [] name node (by simpa using hname)
    have hbelow : places admits (Path.join path name) node =
        places admits' (Path.join path' name) node :=
      places_congr hnode fun place other child hplace =>
        h (name :: place) other child (List.forall_mem_cons.mpr ⟨hname, hplace⟩)
    rw [placesIn, placesIn, hadmits, hbelow,
      placesIn_congr (fun other hother => hentries other (List.mem_cons_of_mem _ hother)) h]

end

/-! ### The order of a walk -/

/-- One place comes before another one in the order of the names compared by their bytes. -/
def PlaceBefore (a b : List String) : Prop := a.map Glob.bytes < b.map Glob.bytes

lemma placeBefore_cons_of_lt {a b : String} (h : a < b) (front back : List String) :
    PlaceBefore (a :: front) (b :: back) := by
  unfold PlaceBefore
  rw [List.map_cons, List.map_cons, List.cons_lt_cons_iff]
  exact Or.inl (Glob.bytes_lt_of_lt h)

lemma PlaceBefore.cons {a b : List String} (h : PlaceBefore a b) (name : String) :
    PlaceBefore (name :: a) (name :: b) := by
  unfold PlaceBefore
  rw [List.map_cons, List.map_cons, List.cons_lt_cons_iff]
  exact Or.inr ⟨rfl, h⟩

mutual

/-- **The order of a walk.** -/
lemma pairwise_places {node : Node} (hnode : node.IsTree) (path : String) :
    (places admits path node).Pairwise PlaceBefore := by
  cases node with
  | file content => exact List.pairwise_singleton _ _
  | link target => exact List.Pairwise.nil
  | dir entries =>
    rw [places]
    exact pairwise_placesIn hnode.sorted (fun entry hentry => (hnode.child hentry).2) path

lemma pairwise_placesIn {entries : List (String × Node)} (hsorted : Keyed.Sorted entries)
    (htrees : ∀ entry ∈ entries, entry.2.IsTree) (path : String) :
    (placesIn admits path entries).Pairwise PlaceBefore := by
  cases entries with
  | nil => exact List.Pairwise.nil
  | cons entry rest =>
    obtain ⟨name, node⟩ := entry
    have hrest := Keyed.sorted_cons.mp hsorted
    rw [placesIn, List.pairwise_append]
    refine ⟨?_, ?_, ?_⟩
    · split
      · rw [List.pairwise_map]
        have hnode := pairwise_places (htrees (name, node) List.mem_cons_self)
          (Path.join path name)
        exact hnode.imp fun h => h.cons name
      · exact List.Pairwise.nil
    · exact pairwise_placesIn hrest.2 (fun entry hentry => htrees entry (by simp [hentry])) path
    · intro a ha b hb
      obtain ⟨other, child, back, hmem, rfl, -⟩ := (mem_placesIn_iff admits path rest b).mp hb
      split at ha
      · obtain ⟨front, -, rfl⟩ := List.mem_map.mp ha
        exact placeBefore_cons_of_lt (hrest.1 _ hmem) front back
      · exact nomatch ha

end

end

end SheetLint
