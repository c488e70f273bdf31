import SheetLint.Proofs.Disk.Placement
import SheetLint.Proofs.Inputs.BaseDirectory
import SheetLint.Proofs.Inputs.Roots

/-!
# The same tree below two fronts

Two patterns whose roots differ only in the names at their front, `IsMoved`, find the same files, if
the same tree stands below these names.  The globs agree about what is below them, so the same is
excluded and admitted, the walks come to the same places, and what is found is the same but for the
front: `alike_expand`.

Files are compared as paths below two directories, `AreMoved`.  There is one list of places for
both, so the files come in the same order, and leaving some out by tests that agree keeps that.
Leaving out what occurs earlier keeps it too, since a path below a directory tells the place.

Globs agree about paths with names behind the front or in it, never about the root directory itself,
which both fronts could be; hence the lemmas that no file is there.
-/

namespace SheetLint

open Disk (Node SameBelow)
open SheetLint.Path (below IsName IsProperName)

/-- These are the same paths below the one directory and below the other. -/
def AreMoved (dir dir' : String) (files files' : List String) : Prop :=
  ∃ places : List (List String), (∀ place ∈ places, ∀ name ∈ place, IsName name) ∧
    files = places.map (below dir) ∧ files' = places.map (below dir')

namespace AreMoved

variable {dir dir' : String} {files files' : List String}

lemma flatten {lists lists' : List (List String)}
    (h : List.Forall₂ (AreMoved dir dir') lists lists') :
    AreMoved dir dir' lists.flatten lists'.flatten := by
  induction h with
  | nil => exact ⟨[], by simp, rfl, rfl⟩
  | cons hfirst _ ih =>
    obtain ⟨places, hplaces, rfl, rfl⟩ := hfirst
    obtain ⟨more, hmore, hfiles, hfiles'⟩ := ih
    refine ⟨places ++ more, fun place hplace => ?_, ?_, ?_⟩
    · exact (List.mem_append.mp hplace).elim (hplaces place) (hmore place)
    · rw [List.flatten_cons, hfiles, List.map_append]
    · rw [List.flatten_cons, hfiles', List.map_append]

lemma filter (h : AreMoved dir dir' files files') {keeps keeps' : String → Bool}
    (hkeeps : ∀ place, (∀ name ∈ place, IsName name) →
      keeps (below dir place) = keeps' (below dir' place)) :
    AreMoved dir dir' (files.filter keeps) (files'.filter keeps') := by
  obtain ⟨places, hplaces, rfl, rfl⟩ := h
  refine ⟨places.filter fun place => keeps (below dir place), ?_, ?_, ?_⟩
  · exact fun place hplace => hplaces place (List.mem_of_mem_filter hplace)
  · rw [List.filter_map]
    rfl
  · rw [List.filter_map]
    congr 1
    exact List.filter_congr fun place hplace => (hkeeps place (hplaces place hplace)).symm

end AreMoved

lemma AreMoved.firstSeen {front front' files files' : List String}
    (hfront : ∀ name ∈ front, IsName name) (hfront' : ∀ name ∈ front', IsName name)
    (h : AreMoved (below "/" front) (below "/" front') files files') :
    AreMoved (below "/" front) (below "/" front') (firstSeen files) (firstSeen files') := by
  obtain ⟨places, hplaces, rfl, rfl⟩ := h
  have hinjective {front : List String} (hfront : ∀ name ∈ front, IsName name) :
      ∀ a ∈ places, ∀ b ∈ places,
        below (below "/" front) a = below (below "/" front) b → a = b := by
    intro a ha b hb heq
    have hall (place : List String) (hplace : place ∈ places) :
        ∀ name ∈ front ++ place, IsName name :=
      List.forall_mem_append.mpr ⟨hfront, hplaces place hplace⟩
    rw [← Path.below_append, ← Path.below_append] at heq
    exact List.append_cancel_left (Path.below_injective (hall a ha) (hall b hb) heq)
  refine ⟨places.eraseDups, fun place hplace => hplaces place (List.mem_eraseDups.mp hplace), ?_,
    ?_⟩
  · rw [firstSeen_eq_eraseDups, eraseDups_map (hinjective hfront)]
  · rw [firstSeen_eq_eraseDups, eraseDups_map (hinjective hfront')]

/-! ### Two fronts -/

section

variable {front front' : List String}

/-- The exclusions agree. -/
structure ExclusionsAgree (front front' : List String) (x x' : Exclusions) : Prop where
  files : List.Forall₂ (Agree front front') x.files x'.files
  directories : List.Forall₂ (Agree front front') x.directories x'.directories

namespace ExclusionsAgree

variable {x x' : Exclusions}

lemma add (hx : ExclusionsAgree front front' x x') {p p' : InputPattern}
    (hp : GlobsAgree front front' p p') :
    Alike (ExclusionsAgree front front') (x.add p) (x'.add p') := by
  unfold Exclusions.add
  refine hp.file.bind fun file file' hfile => hp.directory.bind fun directory directory' h => ?_
  refine .ok ⟨List.rel_append hx.files (.cons hfile .nil), List.rel_append hx.directories ?_⟩
  cases h with
  | none => exact .nil
  | some h => exact .cons h .nil

lemma ofPatterns {patterns patterns' : List InputPattern}
    (h : List.Forall₂ (GlobsAgree front front') patterns patterns') :
    Alike (ExclusionsAgree front front') (Exclusions.ofPatterns patterns)
      (Exclusions.ofPatterns patterns') :=
  Alike.foldlM (h.imp fun _ _ hp _ _ hx => hx.add hp) ⟨.nil, .nil⟩

lemma any_eq {globs globs' : List Glob} (h : List.Forall₂ (Agree front front') globs globs')
    {names : List String} (hnames : ∀ name ∈ names, IsName name) (hne : front ++ names ≠ [])
    (hne' : front' ++ names ≠ []) :
    globs.any (·.matchesPath (below "/" (front ++ names))) =
      globs'.any (·.matchesPath (below "/" (front' ++ names))) := by
  induction h with
  | nil => rfl
  | cons hfirst _ ih => rw [List.any_cons, List.any_cons, hfirst names hnames hne hne', ih]

end ExclusionsAgree

/-- The one pattern is the other one with the front of its root exchanged. -/
structure IsMoved (front front' : List String) (p p' : InputPattern) : Prop where
  rest : p.rest = p'.rest
  root : ∃ inner, (∀ name ∈ inner, IsProperName name) ∧ p.root = below "/" (front ++ inner) ∧
    p'.root = below "/" (front' ++ inner)

lemma IsMoved.globsAgree (hfront : AreEscapable front) (hfront' : AreEscapable front')
    {p p' : InputPattern} (hp : IsMoved front front' p p') : GlobsAgree front front' p p' := by
  obtain ⟨hrest, inner, hinner, hroot, hroot'⟩ := hp
  have hnames := Path.isName_of_isProperName hinner
  have hbehind : p.behindRoot = p'.behindRoot := by
    unfold InputPattern.behindRoot InputPattern.isLiteral
    rw [hrest]
  have hglob := InputPattern.globText_eq_globBehind
    (List.forall_mem_append.mpr ⟨hfront.isName, hnames⟩) hroot
  have hglob' := InputPattern.globText_eq_globBehind
    (List.forall_mem_append.mpr ⟨hfront'.isName, hnames⟩) hroot'
  rw [globBehind_append] at hglob hglob'
  rw [← hbehind] at hglob'
  exact globsAgree_of_globText hfront hfront'
    (isBehind_escape_append inner p.isBehind_behindRoot) hglob hglob'

/-! ### One pattern -/

lemma walkStart_congr {d d' : Disk} {root root' : String}
    (hentry : (d.entry root).toOption = (d'.entry root').toOption)
    (hnode : (d.node root).toOption = (d'.node root').toOption) :
    walkStart d root = walkStart d' root' := by
  unfold walkStart
  rcases cases_of_toOption_eq hentry with ⟨error, error', h, h'⟩ | ⟨entry, h, h'⟩
  · rw [h, h']
  · rw [h, h']
    rcases cases_of_toOption_eq hnode with ⟨error, error', hn, hn'⟩ | ⟨node, hn, hn'⟩ <;>
    · rw [hn, hn']

lemma isNonDirectory_congr {d d' : Disk} {path path' : String}
    (hentry : (d.entry path).toOption = (d'.entry path').toOption) :
    d.isNonDirectory path = d'.isNonDirectory path' := by
  unfold Disk.isNonDirectory
  rcases cases_of_toOption_eq hentry with ⟨error, error', h, h'⟩ | ⟨entry, h, h'⟩ <;> rw [h, h']

lemma ne_nil_of_isNonDirectory {d : Disk} (hd : d.IsFileSystem) {names : List String}
    (h : d.isNonDirectory (below "/" names) = true) : names ≠ [] := by
  rintro rfl
  have hroot : d.isNonDirectory "/" = true := h
  unfold Disk.isNonDirectory at hroot
  rw [Disk.entry_root] at hroot
  simp [hd.isDir] at hroot

/-- A file to which names lead from the start of a walk is not the root directory. -/
lemma ne_nil_of_at?_walkStart {d : Disk} (hd : d.IsFileSystem) {names place : List String}
    {content : ByteArray}
    (h : (walkStart d (below "/" names)).at? place = some (.file content)) :
    names ++ place ≠ [] := by
  intro hnil
  obtain ⟨rfl, rfl⟩ := List.append_eq_nil_iff.mp hnil
  have hroot : walkStart d (below "/" []) = d.tree := walkStart_root hd
  have hdir := hd.isDir
  rw [← hroot, Option.some.inj h] at hdir
  exact nomatch hdir

lemma ne_nil_of_mem_places {d : Disk} (hd : d.IsFileSystem)
    {admits : String → String → Node → Bool} {names place : List String}
    (h : place ∈ places admits (below "/" names) (walkStart d (below "/" names))) :
    names ++ place ≠ [] := by
  obtain ⟨⟨content, hfile⟩, -⟩ :=
    (mem_places_iff admits (isTree_walkStart hd.isTree _) _ _).mp h
  exact ne_nil_of_at?_walkStart hd hfile

section

variable {d d' : Disk} {x x' : Exclusions} {p p' : InputPattern}
  (hsame : SameBelow d (below "/" front) d' (below "/" front')) (hp : IsMoved front front' p p')

include hsame hp in
lemma IsMoved.walkStart_eq : walkStart d p.root = walkStart d' p'.root := by
  obtain ⟨-, inner, hinner, hroot, hroot'⟩ := hp
  rw [hroot, hroot', Path.below_append, Path.below_append]
  exact walkStart_congr (hsame.entry inner hinner) (hsame.node inner hinner)

include hsame hp in
lemma IsMoved.isNonDirectory_eq : d.isNonDirectory p.root = d'.isNonDirectory p'.root := by
  obtain ⟨-, inner, hinner, hroot, hroot'⟩ := hp
  rw [hroot, hroot', Path.below_append, Path.below_append]
  exact isNonDirectory_congr (hsame.entry inner hinner)

lemma below_root {root : String} {inner : List String} (hroot : root = below "/" (front ++ inner))
    (place : List String) : below root place = below "/" (front ++ (inner ++ place)) := by
  rw [hroot, ← Path.below_append, List.append_assoc]

lemma IsMoved.areMoved_map (hp : IsMoved front front' p p') {found : List (List String)}
    (hfound : ∀ place ∈ found, ∀ name ∈ place, IsName name) :
    AreMoved (below "/" front) (below "/" front') (found.map (below p.root))
      (found.map (below p'.root)) := by
  obtain ⟨-, inner, hinner, hroot, hroot'⟩ := hp
  have hnames := Path.isName_of_isProperName hinner
  have hbelow {front : List String} {root : String} (hroot : root = below "/" (front ++ inner)) :
      found.map (below root) = (found.map (inner ++ ·)).map (below (below "/" front)) := by
    rw [List.map_map]
    refine List.map_congr_left fun place _ => ?_
    rw [below_root hroot, Path.below_append]
    rfl
  refine ⟨found.map (inner ++ ·), fun moved hmem => ?_, hbelow hroot, hbelow hroot'⟩
  obtain ⟨place, hplace, rfl⟩ := List.mem_map.mp hmem
  exact List.forall_mem_append.mpr ⟨hnames, hfound place hplace⟩

include hsame hp in
/-- **A literal pattern names the same file.** -/
lemma alike_expand_literal (hd : d.IsFileSystem) (hd' : d'.IsFileSystem)
    (hx : ExclusionsAgree front front' x x') (hliteral : p.isLiteral = true) :
    Alike (AreMoved (below "/" front) (below "/" front')) (p.expand d x) (p'.expand d' x') := by
  have hliteral' : p'.isLiteral = true := by rwa [InputPattern.isLiteral, ← hp.rest]
  have hfile := hp.isNonDirectory_eq hsame
  have hmoved : AreMoved (below "/" front) (below "/" front') [p.root] [p'.root] :=
    hp.areMoved_map (by simp : ∀ place ∈ [([] : List String)], ∀ name ∈ place, IsName name)
  obtain ⟨-, inner, hinner, hroot, hroot'⟩ := hp
  have hnames := Path.isName_of_isProperName hinner
  unfold InputPattern.expand
  rw [if_pos hliteral, if_pos hliteral', ← hfile]
  cases hisFile : d.isNonDirectory p.root with
  | false => exact .ok ⟨[], by simp, rfl, rfl⟩
  | true =>
    have hne : front ++ inner ≠ [] := ne_nil_of_isNonDirectory hd (hroot ▸ hisFile)
    have hne' : front' ++ inner ≠ [] :=
      ne_nil_of_isNonDirectory hd' (hroot' ▸ hfile ▸ hisFile)
    have hexcluded : x.excludesFile p.root = x'.excludesFile p'.root := by
      rw [hroot, hroot']
      exact ExclusionsAgree.any_eq hx.files hnames hne hne'
    rw [← hexcluded]
    cases x.excludesFile p.root with
    | true => exact .ok ⟨[], by simp, rfl, rfl⟩
    | false => exact .ok hmoved

include hsame hp in
/-- **Walks come to the same places.** -/
lemma places_eq (hd : d.IsFileSystem) (hx : ExclusionsAgree front front' x x') :
    places (walkAdmits x p.namesHidden) p.root (walkStart d p.root) =
      places (walkAdmits x' p'.namesHidden) p'.root (walkStart d' p'.root) := by
  have hhidden : p.namesHidden = p'.namesHidden := by
    rw [InputPattern.namesHidden, hp.rest, InputPattern.namesHidden]
  rw [← hp.walkStart_eq hsame, hhidden]
  obtain ⟨-, inner, hinner, hroot, hroot'⟩ := hp
  have hnames := Path.isName_of_isProperName hinner
  refine places_congr (isTree_walkStart hd.isTree p.root) fun place name child hplace => ?_
  have hexcluded : x.excludesDirectory (below p.root (place ++ [name])) =
      x'.excludesDirectory (below p'.root (place ++ [name])) := by
    rw [below_root hroot, below_root hroot']
    exact ExclusionsAgree.any_eq hx.directories (List.forall_mem_append.mpr ⟨hnames, hplace⟩)
      (by simp) (by simp)
  unfold walkAdmits
  rw [hexcluded]

include hsame hp in
/-- **A pattern with a glob names the same files.** -/
lemma alike_expand_glob (hd : d.IsFileSystem) (hd' : d'.IsFileSystem)
    (hx : ExclusionsAgree front front' x x') (hglobs : GlobsAgree front front' p p')
    (hliteral : p.isLiteral = false) :
    Alike (AreMoved (below "/" front) (below "/" front')) (p.expand d x) (p'.expand d' x') := by
  have hliteral' : p'.isLiteral = false := by rwa [InputPattern.isLiteral, ← hp.rest]
  have htree := isTree_walkStart hd.isTree p.root
  have hplaces := places_eq hsame hp hd hx
  unfold InputPattern.expand
  rw [if_neg (by simp [hliteral]), if_neg (by simp [hliteral'])]
  refine hglobs.file.bind fun glob glob' hglob => .ok ?_
  rw [walk_eq_map_places, walk_eq_map_places, ← hplaces, List.filter_map, List.filter_map]
  generalize hfound : places (walkAdmits x p.namesHidden) p.root (walkStart d p.root) = found
    at hplaces
  have hnames : ∀ place ∈ found, ∀ name ∈ place, IsName name := by
    intro place hmem
    obtain ⟨⟨content, hfile⟩, -⟩ := (mem_places_iff _ htree _ _).mp (hfound ▸ hmem)
    exact htree.isName hfile
  have hkept : ∀ place ∈ found,
      (glob.matchesPath (below p.root place) && !x.excludesFile (below p.root place)) =
        (glob'.matchesPath (below p'.root place) && !x'.excludesFile (below p'.root place)) := by
    obtain ⟨-, inner, hinner, hroot, hroot'⟩ := hp
    intro place hmem
    have hall := List.forall_mem_append.mpr
      ⟨Path.isName_of_isProperName hinner, hnames place hmem⟩
    have hne : front ++ (inner ++ place) ≠ [] := by
      rw [← hfound, hroot] at hmem
      simpa using ne_nil_of_mem_places hd hmem
    have hne' : front' ++ (inner ++ place) ≠ [] := by
      rw [hplaces, hroot'] at hmem
      simpa using ne_nil_of_mem_places hd' hmem
    have hexcluded : x.excludesFile (below "/" (front ++ (inner ++ place))) =
        x'.excludesFile (below "/" (front' ++ (inner ++ place))) :=
      ExclusionsAgree.any_eq hx.files hall hne hne'
    rw [below_root hroot, below_root hroot', hglob _ hall hne hne', hexcluded]
  have hsame : found.filter ((fun path => glob.matchesPath path && !x.excludesFile path) ∘
      below p.root) = found.filter ((fun path => glob'.matchesPath path && !x'.excludesFile path) ∘
        below p'.root) := List.filter_congr hkept
  rw [← hsame]
  exact hp.areMoved_map fun place hmem => hnames place (List.mem_of_mem_filter hmem)

include hsame hp in
/-- **A pattern names the same files.** -/
lemma alike_expand (hd : d.IsFileSystem) (hd' : d'.IsFileSystem)
    (hx : ExclusionsAgree front front' x x') (hglobs : GlobsAgree front front' p p') :
    Alike (AreMoved (below "/" front) (below "/" front')) (p.expand d x) (p'.expand d' x') := by
  cases hliteral : p.isLiteral with
  | true => exact alike_expand_literal hsame hp hd hd' hx hliteral
  | false => exact alike_expand_glob hsame hp hd hd' hx hglobs hliteral

end

end

end SheetLint
