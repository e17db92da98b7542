import EntityModel.Document.Basic

/-!
# Assembling tables

The statements of a text name places in a tree of tables: a key with dots goes down through tables
that it may create, `[a.b]` opens a table once, and `[[a.b]]` adds a table to an array. A table that
was only passed through by a header may be opened later and then moves to the end of its parent; one
that a key created may be extended by keys only, and one that was opened not at all.
-/

namespace EntityModel.Toml

/-- How a table came about. -/
inductive Origin where
  | opened
  | passed
  | keyed
  deriving DecidableEq

/-- A tree that is being assembled. -/
inductive Node where
  | value (d : Document)
  | table (origin : Origin) (members : List (String × Node))
  | array (tables : List (List (String × Node)))
  deriving Inhabited

namespace Node

/-- The members of a table that is being assembled. -/
abbrev Members := List (String × Node)

/-- What stands under a name. -/
def find? (k : String) : Members → Option Node
  | [] => none
  | (k', n) :: rest => if k' = k then some n else find? k rest

/-- Puts another node under a name that is there. -/
def replace (k : String) (n : Node) : Members → Members
  | [] => []
  | (k', n') :: rest => if k' = k then (k', n) :: rest else (k', n') :: replace k n rest

/-- Takes a name out. -/
def remove (k : String) (ms : Members) : Members := ms.filter fun m => m.1 ≠ k

/-- Changes the table at the end of a path, creating tables on the way. `byKey` says that a key
leads there, and not a header; `change` is also told how the table came about. -/
def descend? (byKey : Bool) (change : Origin → Members → Option Members) :
    List String → Origin → Members → Option Members
  | [], origin, ms => change origin ms
  | k :: path, _, ms =>
    match find? k ms with
    | none => do
      let origin := if byKey then Origin.keyed else .passed
      return ms ++ [(k, .table origin (← descend? byKey change path origin []))]
    | some (.value _) => none
    | some (.table origin sub) =>
      if byKey ∧ origin = .opened then none
      else do return replace k (.table origin (← descend? byKey change path origin sub)) ms
    | some (.array tables) =>
      match tables.reverse with
      | [] => none
      | last :: before => do
        let last ← descend? byKey change path .opened last
        return replace k (.array (last :: before).reverse) ms

/-- Sets a key of a table that came about by keys exactly if the key has dots in front. -/
def setLast? (name : String) (d : Document) (dotted : Bool) (origin : Origin) (ms : Members) :
    Option Members :=
  if decide (origin = .keyed) ≠ dotted then none
  else if (find? name ms).isSome then none
  else some (ms ++ [(name, .value d)])

/-- Sets the key at the end of a path of keys, in an open table. -/
def setKey? (key : List String) (d : Document) (ms : Members) : Option Members :=
  match key.reverse with
  | [] => none
  | name :: path =>
    descend? true (setLast? name d (!path.isEmpty)) path.reverse .opened ms

/-- Sets a key in the table that a header has opened. -/
def setUnder? (header key : List String) (d : Document) (root : Members) : Option Members :=
  descend? false (fun _ ms => setKey? key d ms) header .opened root

/-- Opens the table of a header. -/
def openTable? (header : List String) (root : Members) : Option Members :=
  match header.reverse with
  | [] => none
  | name :: path =>
    descend? false (fun _ ms =>
      match find? name ms with
      | none => some (ms ++ [(name, .table .opened [])])
      | some (.table .passed sub) => some (remove name ms ++ [(name, .table .opened sub)])
      | some _ => none) path.reverse .opened root

/-- Adds a table to the array of a header. -/
def addTable? (header : List String) (root : Members) : Option Members :=
  match header.reverse with
  | [] => none
  | name :: path =>
    descend? false (fun _ ms =>
      match find? name ms with
      | none => some (ms ++ [(name, .array [[]])])
      | some (.array tables) => some (replace name (.array (tables ++ [[]])) ms)
      | some _ => none) path.reverse .opened root

mutual
/-- The document of an assembled tree. -/
def toDocument : Node → Document
  | .value d => d
  | .table _ members => .table (toDocumentMembers members)
  | .array tables => .list (toDocumentTables tables)

/-- The members of an assembled table. -/
def toDocumentMembers : List (String × Node) → List (String × Document)
  | [] => []
  | (k, n) :: rest => (k, n.toDocument) :: toDocumentMembers rest

/-- The tables of an assembled array. -/
def toDocumentTables : List (List (String × Node)) → List Document
  | [] => []
  | ms :: rest => .table (toDocumentMembers ms) :: toDocumentTables rest
end

end Node

end EntityModel.Toml
