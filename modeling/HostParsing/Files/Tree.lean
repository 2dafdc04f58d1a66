import HostParsing.Files.Path
/-!
# File trees

Files and directories, as far as reading and writing single files goes. A path is
followed name by name from the root or from the current directory, and every name
but the last has to be that of a directory. `find` is the node that a path leads to,
`read` what the system tells of it, and `write` changes it; `createAll` makes the directories that a path lacks. A name
takes part in a lookup only once everything before it is known to be a directory,
so of several problems along a path the first one is told.

`node?` is the view that the others are told by: what is put at a place is found
there (`Node.get?_put_self`).
-/

namespace HostParsing

/-- The places of a tree are lists of names, from the root down. -/
abbrev Place := List String

/-- What a place holds. -/
inductive Node
  | file (content : ByteArray)
  | directory (inside : String → Option Node)

namespace Node

/-- A directory without anything in it. -/
def empty : Node := .directory fun _ => none

instance : Inhabited Node := ⟨empty⟩

/-- What is found below a node. -/
def get? : Node → Place → Option Node
  | node, [] => some node
  | .directory inside, name :: rest =>
    match inside name with
    | some node => node.get? rest
    | none => none
  | .file _, _ :: _ => none

/-- The node with something else at a place below it, and with directories on the
way there. -/
def put (new : Node) : Node → Place → Node
  | _, [] => new
  | .directory inside, name :: rest =>
    let below := put new ((inside name).getD empty) rest
    .directory fun other => if other = name then some below else inside other
  | .file content, _ :: _ => .file content

theorem get?_put_self (new : Node) {node : Node} {place : Place} {name : String}
    {inside : String → Option Node} (h : node.get? place = some (.directory inside)) :
    (put new node (place ++ [name])).get? (place ++ [name]) = some new := by
  induction place generalizing node with
  | nil =>
    obtain rfl : node = .directory inside := by simpa [get?] using h
    simp [put, get?]
  | cons first rest ih =>
    cases node with
    | file content => simp [get?] at h
    | directory others =>
      cases found : others first with
      | none => simp [get?, found] at h
      | some below =>
        have h : below.get? rest = some (.directory inside) := by simpa [get?, found] using h
        simpa [put, get?, found] using ih h

end Node

/-- Files and directories, and the directory from which paths are followed. -/
structure FileTree where
  root : Node
  current : Place

namespace FileTree

/-- A tree of a root directory alone. -/
def empty : FileTree := ⟨.empty, []⟩

/-- What a place holds. -/
def node? (tree : FileTree) (place : Place) : Option Node :=
  tree.root.get? place

/-- The tree with something else at a place. -/
def put (tree : FileTree) (place : Place) (node : Node) : FileTree :=
  { tree with root := node.put tree.root place }

/-- Where a path starts. -/
def origin (tree : FileTree) (path : String) : Place :=
  if Path.isAbsolute path then [] else tree.current

/-- Refuse a place that is no directory. -/
def expectDirectory (tree : FileTree) (place : Place) : Except Problem Unit :=
  match tree.node? place with
  | some (.directory _) => .ok ()
  | some (.file _) => .error .notADirectory
  | none => .error .notFound

/-- Follow one name from a place. -/
def step (tree : FileTree) (place : Place) (name : String) : Except Problem Place := do
  tree.expectDirectory place
  if name = "." then .ok place
  else if name = ".." then .ok place.dropLast
  else if Path.nameLimit < name.utf8ByteSize then .error .nameTooLong
  else .ok (place ++ [name])

/-- What is at a path. A slash at the end asks for a directory. -/
def find (tree : FileTree) (path : String) : Except Problem Node := do
  Path.check path
  let place ← (Path.names path).foldlM tree.step (tree.origin path)
  if Path.endsInSlash path then
    tree.expectDirectory place
  match tree.node? place with
  | some node => .ok node
  | none => .error .notFound

/-- The content of a file. -/
def contentOf : Node → Except Problem ByteArray
  | .file content => .ok content
  | .directory _ => .error .isADirectory

/-- What the system tells of a path: a directory is found, but not read. -/
def read (tree : FileTree) : Files := fun path =>
  ⟨(tree.find path).isOk, (tree.find path).bind contentOf⟩

/-- Write the file at a path, whose directory must exist. The last name must be one
that a file can have. -/
def write (tree : FileTree) (path : String) (content : ByteArray) :
    Except Problem FileTree := do
  Path.check path
  let names := Path.names path
  let place ← names.dropLast.foldlM tree.step (tree.origin path)
  tree.expectDirectory place
  match names.getLast? with
  | none => .error .isADirectory
  | some name =>
    if Path.endsInSlash path ∨ name = "." ∨ name = ".." then
      .error .isADirectory
    else
      let place ← tree.step place name
      match tree.node? place with
      | some (.directory _) => .error .isADirectory
      | _ => .ok (tree.put place (.file content))

/-- Make the directories along names, one after the other. -/
def makeEach (tree : FileTree) (place : Place) : List String → Except Problem FileTree
  | [] => .ok tree
  | name :: rest =>
    if name = "." then
      tree.makeEach place rest
    else if name = ".." then
      tree.makeEach place.dropLast rest
    else
      match tree.node? (place ++ [name]) with
      | some (.directory _) => tree.makeEach (place ++ [name]) rest
      | some (.file _) => .error .alreadyExists
      | none =>
        if Path.nameLimit < name.utf8ByteSize then
          .error .nameTooLong
        else
          (tree.put (place ++ [name]) .empty).makeEach (place ++ [name]) rest

/-- Make the directories that are missing along names. Up to the first missing one
the names are followed as one path, so a file before the last name is no directory
to follow it from; from there on every name is tried for itself, and a file has
the name already. -/
def makeMissing (tree : FileTree) (place : Place) : List String → Except Problem FileTree
  | [] => .ok tree
  | name :: rest =>
    if name = "." then
      tree.makeMissing place rest
    else if name = ".." then
      tree.makeMissing place.dropLast rest
    else
      match tree.node? (place ++ [name]) with
      | some (.directory _) => tree.makeMissing (place ++ [name]) rest
      | some (.file _) => .error (if rest = [] then .alreadyExists else .notADirectory)
      | none => tree.makeEach place (name :: rest)

/-- Make the directory at a path, and those that it lacks on the way. The empty path
lacks none. -/
def createAll (tree : FileTree) (path : String) : Except Problem FileTree :=
  if path = "" then
    .ok tree
  else do
    Path.check path
    tree.makeMissing (tree.origin path) (Path.names path)

end FileTree
end HostParsing
