import EntityModel.OrderedMap

/-!
# Dependency graphs

An edge from a source to a target says that the source can be emitted only once the target has been.
Nodes and edges are recorded independently of each other: a target need not be a node.
-/

namespace EntityModel

/-- The targets that edges give a source. -/
def targetsIn (edges : OrderedMap String (List String)) (source : String) : List String :=
  (edges.find? source).getD []

/-- Nodes in the order of their registration, and for each source its targets. -/
structure DependencyGraph where
  nodes : List String
  edges : OrderedMap String (List String)
  deriving DecidableEq, Inhabited

namespace DependencyGraph

/-- The graph without nodes and edges. -/
def empty : DependencyGraph := ⟨[], .empty⟩

/-- Adds a name to a list that does not hold it. -/
def addName (name : String) (names : List String) : List String :=
  if names.contains name then names else names ++ [name]

/-- Registers a node. -/
def addNode (g : DependencyGraph) (node : String) : DependencyGraph :=
  { g with nodes := addName node g.nodes }

/-- Records that a source depends on a target. -/
def addEdge (g : DependencyGraph) (source target : String) : DependencyGraph :=
  { g with edges := g.edges.upsert source fun ts => addName target (ts.getD []) }

/-- The graph of the given nodes, without edges. -/
def ofNodes (nodes : List String) : DependencyGraph := nodes.foldl addNode empty

/-- The targets of a node. -/
def dependencies (g : DependencyGraph) (node : String) : List String := targetsIn g.edges node

/-- The sources of which a node is a target. -/
def dependents (g : DependencyGraph) (node : String) : List String :=
  (g.edges.entries.filter fun e => e.2.contains node).map Prod.fst

/-- The number of edges. -/
def edgeCount (g : DependencyGraph) : Nat :=
  g.edges.values.foldl (fun n targets => n + targets.length) 0

end DependencyGraph

end EntityModel
