import SheetLint.Keyed

/-!
# A tree of files

A node is a file with its bytes, a symbolic link with the path it names, or a directory with its
entries sorted by name.  A place in a tree is the list of names that lead to it; `at?` is the view
through which the other operations are described.
-/

namespace SheetLint.Disk

/-- What can stand under a name. -/
inductive Node where
  | file (content : ByteArray)
  | link (target : String)
  | dir (entries : List (String × Node))

namespace Node

/-- A directory without entries. -/
def emptyDir : Node := .dir []

/-- Whether the node is a directory. -/
def isDir : Node → Bool
  | .dir _ => true
  | _ => false

/-- Whether the node is a file. -/
def isFile : Node → Bool
  | .file _ => true
  | _ => false

/-- The entries of a directory; other nodes have none. -/
def entries : Node → Keyed Node
  | .dir entries => entries
  | _ => []

/-- The entry of a directory under a name. -/
def child? (n : Node) (name : String) : Option Node :=
  n.entries.find? name

/-- The node at a place. -/
def at? (n : Node) : List String → Option Node
  | [] => some n
  | name :: rest => (n.child? name).bind (·.at? rest)

/-- The tree with `new` at a place.  Nothing changes when no directory is there to hold it. -/
def put (n : Node) (new : Node) : List String → Node
  | [] => new
  | name :: rest =>
    match n with
    | .dir entries =>
      match Keyed.find? entries name, rest with
      | some child, rest => .dir (Keyed.insert name (child.put new rest) entries)
      | none, [] => .dir (Keyed.insert name new entries)
      | none, _ :: _ => n
    | _ => n

/-- The tree without what is at a place. -/
def remove (n : Node) : List String → Node
  | [] => n
  | [name] =>
    match n with
    | .dir entries => .dir (Keyed.erase name entries)
    | _ => n
  | name :: rest =>
    match n with
    | .dir entries =>
      match Keyed.find? entries name with
      | some child => .dir (Keyed.insert name (child.remove rest) entries)
      | none => n
    | _ => n

mutual

/-- Everything below a node, each directory right before what is below it, as names joined by
slashes; `path` is what stands before them. -/
def listing (path : String) : Node → List String
  | .dir entries => listEntries path entries
  | .file _ | .link _ => []

/-- Everything below some entries, and the entries themselves, directories with a slash. -/
def listEntries (path : String) : List (String × Node) → List String
  | [] => []
  | (name, node) :: rest =>
    (match node with
      | .dir _ => (path ++ name ++ "/") :: node.listing (path ++ name ++ "/")
      | .file _ | .link _ => [path ++ name]) ++ listEntries path rest

end

end Node

end SheetLint.Disk
