import TextureAtlas.Error
import TextureAtlas.Export
import TextureAtlas.Files.Path
import TextureAtlas.Table

/-!
# File trees

A file tree maps locations, lists of names from the root, to directories and files. The root is always
a directory. Paths are followed name by name: each name but the last has to lead to a directory, and
relative paths start at the working directory. In ascending order a directory comes right before what
is below it, and siblings follow each other by name.
-/

namespace TextureAtlas

/-- Files compare by their bytes. -/
local instance bytesDecidableEq : DecidableEq ByteArray := ByteArray.decEq

/-- What a file holds: bytes, or an image that is stored as a picture file. -/
inductive FileContent where
  | bytes (data : ByteArray)
  | picture (raster : Raster)
  deriving DecidableEq

/-- What is found at a location. -/
inductive FileNode where
  | directory
  | file (content : FileContent)
  deriving DecidableEq

/-- Names from the root. -/
abbrev Location := List String

/-- Directories and files with the working directory. -/
structure FileTree where
  nodes : Table Location FileNode := {}
  workingDirectory : Location := []

namespace FileTree

/-- What is found at a location; the root is a directory. -/
def node? (t : FileTree) (l : Location) : Option FileNode :=
  if l = [] then some .directory else t.nodes.get? l

/-- The tree with something stored at a location. -/
def store (t : FileTree) (l : Location) (n : FileNode) : FileTree := { t with nodes := t.nodes.insert l n }

theorem node?_store (t : FileTree) {l : Location} (hl : l ≠ []) (n : FileNode) (j : Location) :
    (t.store l n).node? j = if j = l then some n else t.node? j := by
  by_cases hj : j = []
  · subst hj; simp [node?, show ([] : Location) ≠ l from fun e => hl e.symm]
  · simp [node?, store, hj]

/-- Whether a directory is at the location. -/
def isDirectoryAt (t : FileTree) (l : Location) : Bool := t.node? l = some .directory

/-- Follows names from a location. -/
def follow (t : FileTree) : Location → List String → Except IoError Location
  | l, [] => .ok l
  | l, name :: rest =>
    if !t.isDirectoryAt l then .error .notDirectory
    else if name = "." then follow t l rest
    else if name = ".." then follow t l.dropLast rest
    else if (t.node? (l ++ [name])).isSome then follow t (l ++ [name]) rest
    else .error .notFound

/-- Where following a path starts. -/
def start (t : FileTree) (p : Path) : Location := if p.isAbsolute then [] else t.workingDirectory

/-- The location that a path leads to. A separator at its end asks for a directory. -/
def locate (t : FileTree) (p : Path) : Except IoError Location :=
  if p.text.isEmpty then .error .notFound
  else t.follow (t.start p) (p.steps ++ if p.endsWithSeparator then ["."] else [])

/-- What a path leads to. -/
def find? (t : FileTree) (p : Path) : Option FileNode :=
  match t.locate p with
  | .ok l => t.node? l
  | .error _ => none

/-- Whether the path leads to a file. -/
def isFile (t : FileTree) (p : Path) : Bool :=
  match t.find? p with
  | some (.file _) => true
  | _ => false

/-- Whether the path leads to a directory. -/
def isDirectory (t : FileTree) (p : Path) : Bool := t.find? p = some .directory

/-- What the file holds. -/
def read (t : FileTree) (p : Path) : Except IoError FileContent := do
  match t.node? (← t.locate p) with
  | some (.file content) => return content
  | some .directory => throw .isDirectory
  | none => throw .notFound

/-- The place of a new entry: the directory it goes to and its name. A path that ends in dots has no
such place. -/
def place? (t : FileTree) (p : Path) : Except IoError (Option Location) := do
  if p.text.isEmpty then throw .notFound
  match p.steps.getLast? with
  | none => return none
  | some name =>
    let parent ← t.follow (t.start p) p.steps.dropLast
    if !t.isDirectoryAt parent then throw .notDirectory
    return if name = "." ∨ name = ".." then none else some (parent ++ [name])

/-- The tree with a file written, anew or over an old one. -/
def write (t : FileTree) (p : Path) (content : FileContent) : Except IoError FileTree := do
  match ← t.place? p with
  | none => throw .isDirectory
  | some l =>
    match t.node? l with
    | some .directory => throw .isDirectory
    | some (.file _) => if p.endsWithSeparator then throw .notDirectory
    | none => if p.endsWithSeparator then throw .isDirectory
    return t.store l (.file content)

/-- The tree with a new directory; its parent has to be there. -/
def createDirectory (t : FileTree) (p : Path) : Except IoError FileTree := do
  match ← t.place? p with
  | none => throw .alreadyExists
  | some l => if (t.node? l).isSome then throw .alreadyExists else return t.store l .directory

/-- The tree with a directory and whatever is missing above it; `levels` bounds how far up one looks.
The new directories stay also when a later one fails. -/
def createDirectories : Nat → FileTree → Path → Except IoError Unit × FileTree
  | levels, t, p =>
    if p.text.isEmpty then (.ok (), t)
    else match t.createDirectory p with
      | .ok t => (.ok (), t)
      | .error .notFound =>
        match levels, p.parent? with
        | levels + 1, some parent =>
          match createDirectories levels t parent with
          | (.error e, t) => (.error e, t)
          | (.ok (), t) =>
            match t.createDirectory p with
            | .ok t => (.ok (), t)
            | .error e => if t.isDirectory p then (.ok (), t) else (.error e, t)
        | _, _ => (.error .notFound, t)
      | .error e => if t.isDirectory p then (.ok (), t) else (.error e, t)

/-- The tree with a directory and whatever is missing above it. -/
def createAll (t : FileTree) (p : Path) : Except IoError Unit × FileTree :=
  createDirectories p.steps.length t p

/-- The names that lead from a location to one below it. -/
def below? : Location → Location → Option (List String)
  | [], names => if names = [] then none else some names
  | a :: l, b :: names => if a = b then below? l names else none
  | _ :: _, [] => none

/-- Everything below a directory, each thing by the names that lead to it; directories come before
what they hold, and siblings in order. -/
def listing (t : FileTree) (p : Path) : List (List String × FileNode) :=
  match t.locate p with
  | .error _ => []
  | .ok l =>
    if t.isDirectoryAt l then
      t.nodes.entries.filterMap fun e => (below? l e.1).map fun names => (names, e.2)
    else []

/-- The files below a directory, in order. -/
def filesBelow (t : FileTree) (p : Path) : List Path :=
  (t.listing p).filterMap fun (names, n) =>
    match n with
    | .file _ => some (p.joinAll names)
    | .directory => none

/-- The files right in a directory, in order. -/
def filesIn (t : FileTree) (p : Path) : List Path :=
  (t.listing p).filterMap fun (names, n) =>
    match names, n with
    | [name], .file _ => some (p.join name)
    | _, _ => none

end FileTree
end TextureAtlas
