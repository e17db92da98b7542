import EntityModel.Files.Tree

/-!
# What a command works with

A command reads and writes files, prints to two streams and asks for the time. `Machine` is a monad
in which it can do so; `Workspace` is the state of one in which all of it is a value.
-/

namespace EntityModel.CommandLine

/-- A monad in which commands run. -/
class Machine (m : Type → Type) where
  readText (path : String) : m (Except FileError String)
  writeText (path text : String) : m (Except FileError Unit)
  makeDirectories (path : String) : m (Except FileError Unit)
  isPresent (path : String) : m Bool
  print (line : String) : m Unit
  warn (line : String) : m Unit
  now : m String

/-- Files, what was printed to each stream, and the time. -/
structure Workspace where
  files : FileTree
  printed : String
  warned : String
  time : String

namespace Workspace

/-- Changes the files, unless that fails. -/
def change (f : FileTree → Except FileError FileTree) :
    StateM Workspace (Except FileError Unit) := fun w =>
  match f w.files with
  | .ok files => (.ok (), { w with files })
  | .error e => (.error e, w)

instance : Machine (StateM Workspace) where
  readText path := fun w => (w.files.readText path, w)
  writeText path text := change fun files => files.writeText path text
  makeDirectories path := change fun files => files.makeDirectories path
  isPresent path := fun w => (w.files.isPresent path, w)
  print line := modify fun w => { w with printed := w.printed ++ line ++ "\n" }
  warn line := modify fun w => { w with warned := w.warned ++ line ++ "\n" }
  now := fun w => (w.time, w)

end Workspace

end EntityModel.CommandLine
