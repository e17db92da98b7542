import EntityModel.Proofs.Order.Emission
import EntityModel.Proofs.Order.Graph
import Mathlib.Data.Finset.Card

/-!
# Graphs and the calls that make them

A graph is made of calls that add a node or an edge (`DependencyGraph.Call`). Which order they come
in shows in the map of edges: sources and targets stand in the order of their first calls. But the
nodes are the added ones, at their first places, and the edges are the recorded pairs
(`built_eq`), and an ordering asks for nothing else (`order_built_congr`). So the emission order
forgets the rest of the history (`order_independent_of_history`).
-/

namespace EntityModel

namespace DependencyGraph

/-- Adding names to none leaves the first of each. -/
theorem foldl_addName (names : List String) :
    names.foldl (fun ns n => addName n ns) [] = names.eraseDups := by
  simpa [addName] using foldl_append_new names

/-- A name that stands there already is no first place. -/
theorem eraseDups_append_cons {n : String} {before : List String} (h : n ∈ before)
    (after : List String) : (before ++ n :: after).eraseDups = (before ++ after).eraseDups := by
  rw [List.eraseDups_append, List.eraseDups_append]
  simp [List.removeAll, h]

/-! ## Questions about edges -/

section
variable {g : DependencyGraph} {s t : String}

/-- A node is a source of its targets. -/
theorem mem_dependents : s ∈ g.dependents t ↔ t ∈ g.dependencies s := by
  simp only [dependents, List.mem_map, List.mem_filter, List.contains_iff_mem]
  constructor
  · rintro ⟨⟨s', ts⟩, ⟨he, ht⟩, rfl⟩
    rwa [dependencies, targetsIn, g.edges.mem_entries.1 he]
  · intro h
    cases hs : g.edges.find? s with
    | none => simp [dependencies, targetsIn, hs] at h
    | some ts =>
      have ht : t ∈ ts := by simpa [dependencies, targetsIn, hs] using h
      exact ⟨(s, ts), ⟨g.edges.mem_entries.2 hs, ht⟩, rfl⟩

/-- The edges are counted by their list. -/
theorem edgeCount_eq (g : DependencyGraph) : g.edgeCount = g.edgeList.length :=
  g.edges.foldl_values_eq_length List.length _ fun _ => List.length_map ..

end

/-! ## Calls -/

/-- A call that adds to a graph. -/
inductive Call where
  | addNode (node : String)
  | addEdge (source target : String)
  deriving DecidableEq, Inhabited

namespace Call

/-- The node that a call adds. -/
def node? : Call → Option String
  | addNode n => some n
  | addEdge _ _ => none

/-- The edge that a call records, a pair of a source and a target. -/
def edge? : Call → Option (String × String)
  | addNode _ => none
  | addEdge s t => some (s, t)

end Call

/-- What a call makes of the graph. -/
def perform (g : DependencyGraph) : Call → DependencyGraph
  | .addNode n => g.addNode n
  | .addEdge s t => g.addEdge s t

/-- The graph that calls make of the empty one. -/
def built (calls : List Call) : DependencyGraph := calls.foldl perform empty

/-- The nodes that calls add, with repetitions. -/
def addedNodes (calls : List Call) : List String := calls.filterMap Call.node?

/-- The edges that calls record, with repetitions. -/
def recordedEdges (calls : List Call) : List (String × String) := calls.filterMap Call.edge?

section
variable {calls calls' : List Call} {s t : String}

theorem mem_recordedEdges : (s, t) ∈ recordedEdges calls ↔ .addEdge s t ∈ calls := by
  rw [recordedEdges, List.mem_filterMap]
  constructor
  · rintro ⟨call, hcall, hedge⟩
    cases call with
    | addNode n => cases hedge
    | addEdge s' t' =>
      cases hedge
      exact hcall
  · exact fun hcall => ⟨_, hcall, rfl⟩

/-- Calls add their nodes and record their edges, the one independently of the other. -/
theorem foldl_perform (g : DependencyGraph) (calls : List Call) :
    calls.foldl perform g =
      ⟨(addedNodes calls).foldl (fun ns n => addName n ns) g.nodes,
        (recordedEdges calls).foldl recordEdge g.edges⟩ := by
  induction calls generalizing g with
  | nil => rfl
  | cons call calls ih =>
    rw [List.foldl_cons, ih]
    cases call with
    | addNode n => rfl
    | addEdge s t => rfl

/-- The nodes of a graph are the added ones, each at its first place, and its edges are recorded one
after the other. -/
theorem built_eq (calls : List Call) :
    built calls =
      ⟨(addedNodes calls).eraseDups, (recordedEdges calls).foldl recordEdge .empty⟩ := by
  rw [built, foldl_perform, ← foldl_addName]
  rfl

/-- The targets of a source are those that it was recorded with. -/
theorem mem_dependencies_built :
    t ∈ (built calls).dependencies s ↔ (s, t) ∈ recordedEdges calls := by
  rw [built_eq, dependencies, mem_targetsIn_foldl]
  exact or_iff_right (List.not_mem_nil (a := t))

/-- A source has each of its targets once. -/
theorem nodup_dependencies_built (calls : List Call) (s : String) :
    ((built calls).dependencies s).Nodup := by
  have hnone : ∀ s, (targetsIn .empty s).Nodup := fun _ => List.nodup_nil
  rw [built_eq]
  exact nodup_targetsIn_foldl hnone s

/-- The number of edges is that of the distinct pairs recorded. -/
theorem edgeCount_built (calls : List Call) :
    (built calls).edgeCount = (recordedEdges calls).toFinset.card := by
  have hedges : (built calls).edgeList.toFinset = (recordedEdges calls).toFinset := by
    ext ⟨s, t⟩
    rw [List.mem_toFinset, List.mem_toFinset, mem_edgeList, mem_dependencies_built]
  rw [edgeCount_eq, ← hedges]
  exact (List.toFinset_card_of_nodup (nodup_edgeList (nodup_dependencies_built calls))).symm

/-! ## Orders -/

/-- The emission order depends on the added nodes at their first places, and on the set of recorded
edges. -/
theorem order_built_congr (hnodes : (addedNodes calls').eraseDups = (addedNodes calls).eraseDups)
    (hedges : ∀ s t, (s, t) ∈ recordedEdges calls' ↔ (s, t) ∈ recordedEdges calls) :
    (built calls').order = (built calls).order := by
  have hsame : (built calls').nodes = (built calls).nodes := by
    rw [built_eq, built_eq]
    exact hnodes
  have htargets : ∀ n t,
      t ∈ targetsIn (built calls').edges n ↔ t ∈ targetsIn (built calls).edges n := by
    intro n t
    exact mem_dependencies_built.trans ((hedges n t).trans mem_dependencies_built.symm)
  rw [order, order, hsame, emissionOrder, emissionOrder,
    Placement.run_congr fun n _ => htargets n]

/-- A node that was added before, or an edge that is recorded anyway, leaves the first places of the
nodes and the set of edges as they are. -/
theorem order_built_insert {before after : List Call} {call : Call}
    (h : call ∈ before ∨ call.edge?.isSome = true ∧ call ∈ after) :
    (built (before ++ call :: after)).order = (built (before ++ after)).order := by
  refine order_built_congr ?_ fun s t => ?_
  · cases call with
    | addEdge s t => simp [addedNodes, List.filterMap_cons, Call.node?]
    | addNode n =>
      have hbefore : .addNode n ∈ before := h.resolve_right fun h => nomatch h.1
      have hn : n ∈ before.filterMap Call.node? := List.mem_filterMap.2 ⟨_, hbefore, rfl⟩
      rw [addedNodes, addedNodes, List.filterMap_append, List.filterMap_append]
      exact eraseDups_append_cons hn _
  · simp only [mem_recordedEdges, List.mem_append, List.mem_cons]
    constructor
    · rintro (hmem | rfl | hmem)
      · exact .inl hmem
      · exact h.imp_right And.right
      · exact .inr hmem
    · exact Or.imp_right .inr

end

/-! ## Main statement -/

/-- The emission order of a graph, or both lists of a failure, depends only on the added nodes at
their first places and on the set of recorded edges. So it stays the same when edges are recorded in
another order, before or after any nodes, and when a call is repeated. The edges are counted as
distinct pairs, and targets and sources are found by the recorded pairs. -/
theorem order_independent_of_history (calls : List Call) :
    (∀ calls', (addedNodes calls').eraseDups = (addedNodes calls).eraseDups →
      (∀ s t, (s, t) ∈ recordedEdges calls' ↔ (s, t) ∈ recordedEdges calls) →
      (built calls').order = (built calls).order) ∧
    (∀ calls', addedNodes calls' = addedNodes calls →
      (recordedEdges calls').Perm (recordedEdges calls) →
      (built calls').order = (built calls).order) ∧
    (∀ before call after, calls = before ++ after →
      call ∈ before ∨ call.edge?.isSome = true ∧ call ∈ after →
      (built (before ++ call :: after)).order = (built calls).order) ∧
    (built calls).edgeCount = (recordedEdges calls).toFinset.card ∧
    ∀ s t, (t ∈ (built calls).dependencies s ↔ s ∈ (built calls).dependents t) ∧
      (t ∈ (built calls).dependencies s ↔ .addEdge s t ∈ calls) := by
  refine ⟨fun calls' => order_built_congr, fun calls' hnodes hedges => ?_, ?_,
    edgeCount_built calls, fun s t => ⟨mem_dependents.symm, ?_⟩⟩
  · exact order_built_congr (congrArg List.eraseDups hnodes) fun s t => hedges.mem_iff
  · rintro before call after rfl h
    exact order_built_insert h
  · exact mem_dependencies_built.trans mem_recordedEdges

/-- A cycle that is recorded before its nodes are added, the other way round and with repetitions:
the order fails with the same lists. -/
theorem order_independent_of_history_of_cycle :
    let calls := [.addEdge "b" "a", .addNode "leaf", .addEdge "a" "b", .addNode "b", .addNode "a"]
    let calls' := [.addNode "leaf", .addNode "b", .addNode "leaf", .addNode "a", .addEdge "a" "b",
      .addEdge "b" "a", .addEdge "a" "b"]
    (addedNodes calls').eraseDups = (addedNodes calls).eraseDups ∧
      (built calls').order = (built calls).order ∧
      (built calls).order = .error ⟨["leaf"], ["b", "a"]⟩ := by
  intro calls calls'
  have hnodes : (addedNodes calls').eraseDups = (addedNodes calls).eraseDups := by decide
  have hedges : recordedEdges calls' ⊆ recordedEdges calls ∧
      recordedEdges calls ⊆ recordedEdges calls' := by
    decide
  have horder : (built calls).order = .error ⟨["leaf"], ["b", "a"]⟩ := by decide +kernel
  exact ⟨hnodes, (order_independent_of_history calls).1 calls' hnodes
    fun s t => ⟨fun h => hedges.1 h, fun h => hedges.2 h⟩, horder⟩

end DependencyGraph

end EntityModel
