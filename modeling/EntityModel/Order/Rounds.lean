import EntityModel.Order.Graph

/-!
# Emission order

Nodes are placed in rounds. A round places every node whose targets have all been placed in earlier
rounds, in the order of the nodes; the first round that places nothing ends the ordering, and what
is left then lies on a cycle, depends on one, or depends on a target that is no node.
-/

namespace EntityModel

/-- The nodes that were placed, in emission order, and those that were not, in the order given. -/
structure Placement where
  placed : List String
  left : List String
  deriving DecidableEq, Repr, Inhabited

/-- The ordering got stuck: what was placed until then, and what was not. -/
structure CycleDetected where
  resolved : List String
  unresolved : List String
  deriving DecidableEq, Repr, Inhabited

namespace Placement

/-- Whether a node may be placed after the given ones. -/
def isReady (targets : String → List String) (placed : List String) (node : String) : Bool :=
  (targets node).all placed.contains

/-- The nodes of a list that the next round places. -/
def ready (targets : String → List String) (placed left : List String) : List String :=
  left.filter (isReady targets placed)

/-- The nodes of a list that the next round does not place. -/
def waiting (targets : String → List String) (placed left : List String) : List String :=
  left.filter fun n => !isReady targets placed n

/-- A round that places a node leaves fewer nodes. -/
theorem length_waiting_lt {targets : String → List String} {placed left : List String}
    (h : ready targets placed left ≠ []) :
    (waiting targets placed left).length < left.length := by
  refine Nat.lt_of_le_of_ne (List.length_filter_le ..) fun he => h ?_
  have hall := List.length_filter_eq_length_iff.1 he
  exact List.filter_eq_nil_iff.2 fun n hn => by simpa using hall n hn

/-- Runs rounds until one places nothing or nothing is left. -/
def run (targets : String → List String) (placed left : List String) : Placement :=
  if ready targets placed left = [] then ⟨placed, left⟩
  else run targets (placed ++ ready targets placed left) (waiting targets placed left)
  termination_by left.length
  decreasing_by exact length_waiting_lt ‹_›

/-- The order, if nothing is left. -/
def order? (p : Placement) : Except CycleDetected (List String) :=
  if p.left.isEmpty then .ok p.placed else .error ⟨p.placed, p.left⟩

end Placement

/-- The emission order of nodes along edges, which may start at other names too. A repeated node
counts once, at its first place. -/
def emissionOrder (nodes : List String) (edges : OrderedMap String (List String)) :
    Except CycleDetected (List String) :=
  (Placement.run (targetsIn edges) [] nodes.eraseDups).order?

/-- The emission order of the nodes. -/
def DependencyGraph.order (g : DependencyGraph) : Except CycleDetected (List String) :=
  emissionOrder g.nodes g.edges

namespace CycleDetected

/-- Names separated by commas. -/
def listed (names : List String) : String := ", ".intercalate names

/-- The message of the error. -/
def message (c : CycleDetected) : String :=
  "Cyclic references detected. Could not order " ++ toString c.unresolved.length ++ " of " ++
    toString (c.resolved.length + c.unresolved.length) ++ " objects (done: [" ++
    listed c.resolved ++ "], unresolved: [" ++ listed c.unresolved ++ "])"

/-- The lines that name what was placed and what was not. -/
def diagnosticLines (c : CycleDetected) : List String :=
  "These objects are done:" :: c.resolved.map ("  " ++ ·) ++
    "These objects could not be ordered:" :: c.unresolved.map ("  " ++ ·)

/-- The lines of the diagnostic as one text. -/
def diagnostic (c : CycleDetected) : String := "\n".intercalate c.diagnosticLines

end CycleDetected

end EntityModel
