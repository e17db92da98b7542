/-!
# Paths of files

A path is a text of names with slashes between them. `Path.parent?` is the path of the directory
that a path leads into, and `Path.join` is a path seen from a directory.
-/

namespace EntityModel.Path

/-- Whether a path starts at the root. -/
def isAbsolute (path : String) : Bool := path.toList.head? == some '/'

/-- Whether a path says that it leads to a directory. -/
def endsInSlash (path : String) : Bool := path.toList.getLast? == some '/'

/-- Drops from the end of a path, given in reverse, what does not change where it leads: slashes,
and dots behind a slash. -/
def trimmed : List Char → List Char
  | '/' :: rest => trimmed rest
  | '.' :: '/' :: rest => trimmed rest
  | cs => cs

/-- The path without its last name, if it has a name. -/
def parent? (path : String) : Option String :=
  match trimmed path.toList.reverse with
  | [] => none
  | last =>
    let above := trimmed (last.dropWhile (· ≠ '/'))
    if above.isEmpty && isAbsolute path then some "/" else some (String.ofList above.reverse)

/-- The path that a path seen from a directory leads to. -/
def join (directory path : String) : String :=
  if isAbsolute path || directory = "" then path
  else if endsInSlash directory then directory ++ path
  else directory ++ "/" ++ path

/-- The names that a path consists of; an empty one stands at two slashes and at the start of a path
from the root. -/
def names (path : String) : List String :=
  let (cs, found) := path.toList.foldr
    (fun c (cs, found) => if c = '/' then ([], String.ofList cs :: found) else (c :: cs, found))
    ([], [])
  String.ofList cs :: found

end EntityModel.Path
