import EntityModel.Files.Path
import EntityModel.OrderedMap

/-!
# Trees of files

A `FileTree` holds texts under paths, the way a file system does: a path leads through directories,
and what goes wrong on its way is a `FileError`.
-/

namespace EntityModel

/-- Why a file could not be read or written. -/
inductive FileError where
  | notFound
  | alreadyExists
  | notDirectory
  | isDirectory
  | other (message : String)
  deriving DecidableEq, Repr, Inhabited

/-- The message of an error. -/
def FileError.message : FileError → String
  | .notFound => "No such file or directory (os error 2)"
  | .alreadyExists => "File exists (os error 17)"
  | .notDirectory => "Not a directory (os error 20)"
  | .isDirectory => "Is a directory (os error 21)"
  | .other message => message

/-- What a path can lead to. -/
inductive FileNode where
  | file (text : String)
  | directory
  deriving DecidableEq, Repr, Inhabited

/-- A place in a tree: the names that lead there from the root. -/
abbrev Place := List String

/-- A tree of files and the directory that relative paths start from. The root is a directory. -/
structure FileTree where
  nodes : OrderedMap Place FileNode
  home : Place
  deriving DecidableEq, Inhabited

namespace FileTree

/-- What is at a place. -/
def node? (t : FileTree) (place : Place) : Option FileNode :=
  if place = [] then some .directory else t.nodes.find? place

/-- The place a path starts from. -/
def start (t : FileTree) (path : String) : Place := if Path.isAbsolute path then [] else t.home

/-- The place that a name leads to: an empty one and a dot lead nowhere, two dots lead up. -/
def step (here : Place) (name : String) : Place :=
  if name = "" ∨ name = "." then here
  else if name = ".." then here.dropLast
  else here ++ [name]

/-- Why a place is no directory, if it is none. -/
def directoryError? (t : FileTree) (here : Place) : Option FileError :=
  match t.node? here with
  | some .directory => none
  | some (.file _) => some .notDirectory
  | none => some .notFound

/-- The place that names lead to; each of them is looked up in a directory. -/
def follow (t : FileTree) (here : Place) : List String → Except FileError Place
  | [] => .ok here
  | name :: rest =>
    match t.directoryError? here with
    | some e => .error e
    | none => t.follow (step here name) rest

/-- The place that a path leads to. -/
def place (t : FileTree) (path : String) : Except FileError Place :=
  if path = "" then .error .notFound else t.follow (t.start path) (Path.names path)

/-- Whether a path leads to something. -/
def isPresent (t : FileTree) (path : String) : Bool :=
  match t.place path with
  | .ok p => (t.node? p).isSome
  | .error _ => false

/-- The text of the file that a path leads to. -/
def readText (t : FileTree) (path : String) : Except FileError String := do
  match t.node? (← t.place path) with
  | some (.file text) => .ok text
  | some .directory => .error .isDirectory
  | none => .error .notFound

/-- Writes the file that a path leads to; it may be new, but its directory may not. -/
def writeText (t : FileTree) (path text : String) : Except FileError FileTree := do
  let ended := Path.endsInSlash path
  let names := if ended then (Path.names path).dropLast else Path.names path
  let p ← if path = "" then .error .notFound else t.follow (t.start path) names
  match t.node? p with
  | some .directory => .error .isDirectory
  | some (.file _) =>
    if ended then .error .notDirectory else .ok { t with nodes := t.nodes.insert p (.file text) }
  | none =>
    if ended then .error .isDirectory else .ok { t with nodes := t.nodes.insert p (.file text) }

/-- Makes all directories that names lead through. -/
def makeAll (t : FileTree) (here : Place) : List String → Except FileError FileTree
  | [] =>
    match t.node? here with
    | some .directory => .ok t
    | some (.file _) => .error .alreadyExists
    | none => .ok { t with nodes := t.nodes.insert here .directory }
  | name :: rest =>
    match t.node? here with
    | some .directory => t.makeAll (step here name) rest
    | some (.file _) => .error .notDirectory
    | none => { t with nodes := t.nodes.insert here .directory }.makeAll (step here name) rest

/-- Makes the directory that a path leads to and all that are missing on its way. -/
def makeDirectories (t : FileTree) (path : String) : Except FileError FileTree :=
  if path = "" then .ok t else t.makeAll (t.start path) (Path.names path)

/-- The tree without files, seen from a directory. -/
def ofHome (home : Place) : FileTree :=
  ⟨(List.range home.length).foldl (fun m n => m.insert (home.take (n + 1)) .directory) .empty, home⟩

/-- Adds a file and the directories it is in. -/
def addFile (t : FileTree) (path text : String) : FileTree :=
  let t := ((t.makeDirectories ((Path.parent? path).getD "")).toOption).getD t
  ((t.writeText path text).toOption).getD t

/-- The files below the directory that relative paths start from, with their paths. -/
def homeFiles (t : FileTree) : List (String × String) :=
  t.nodes.entries.filterMap fun n =>
    match n.2 with
    | .file text =>
      if t.home.isPrefixOf n.1 then some ("/".intercalate (n.1.drop t.home.length), text) else none
    | .directory => none

end FileTree

end EntityModel
