import EntityModel.Proofs.Order.Emission
import EntityModel.Proofs.Validator.Dependencies

/-!
# Validators under any calls

A validator may be called in any order and about anything (`Validator.Operation`), not only as a
parse does. Its graph stays linked to its model all the same (`Validator.Linked`): the nodes are the
entities, edges start at nodes, and every reference of the model has its edge. So a reference to
something that is no entity keeps its entity out of the emission order
(`graph_linked_after_calls`).
-/

namespace EntityModel

namespace Validator

/-! ## Operations -/

/-- A call of a validator: a handler of an event, or one of the functions that handlers and outputs
are made of. -/
inductive Operation where
  | handle (ev : Event)
  | normalizeAttribute (entity name : String) (c : AttributeConfig)
  | normalizeReference (entity name : String) (c : ReferenceConfig)
  | normalizeEntity (name : String) (e : Entity)
  | checkEntity (name : String)
  | checkTarget (entity name target : String)
  | checkTargets
  deriving DecidableEq, Inhabited

/-- What a call makes of the validator; what it answers is left aside, a failure too. -/
def perform (v : Validator) : Operation → Validator
  | .handle ev =>
    match Consumer.handle v ev with
    | .ok v => v
    | .error _ => v
  | .normalizeAttribute entity name c => (v.normalizeAttribute entity name c).2
  | .normalizeReference entity name c => (v.normalizeReference entity name c).2
  | .normalizeEntity name e => (v.normalizeEntity name e).2
  | .checkEntity name => v.checkEntity name
  | .checkTarget entity name target => (v.checkTarget entity name target).2
  | .checkTargets => v.checkTargets.2

/-! ## Model and graph -/

/-- The graph fits the model: its nodes are the entities, its edges start at nodes, and each
reference of the model is recorded as an edge. -/
structure Linked (v : Validator) : Prop where
  nodes_eq : v.graph.nodes = v.model.names
  source_mem : ∀ s ∈ v.graph.edges.keys, s ∈ v.graph.nodes
  recorded : ∀ n r c, v.model.reference? n r = some c → c.target ∈ v.graph.dependencies n

namespace Linked

/-- A fresh validator has neither entities nor edges. -/
theorem ofTables (t : ValidationTables) : (Validator.ofTables t).Linked where
  nodes_eq := rfl
  source_mem _ h := by cases h
  recorded _ _ _ h := by cases h

variable {v : Validator}

/-- Other errors change neither model nor graph. -/
theorem withErrors (h : v.Linked) (r : ErrorRecord) : (v.withErrors r).Linked :=
  ⟨h.nodes_eq, h.source_mem, h.recorded⟩

/-- An event keeps the graph fitting: a dependency comes with its entity, and a reference with its
dependency. -/
theorem accept (h : v.Linked) (ev : Event) : (v.accept ev).Linked where
  nodes_eq := v.nodes_accept h.nodes_eq ev
  source_mem s hs := by
    rw [v.nodes_accept h.nodes_eq, names_accept, DependencyGraph.mem_foldl_addName, ← h.nodes_eq]
    rw [edges_accept, DependencyGraph.mem_keys_foldl_recordEdge] at hs
    rcases hs with hold | ⟨t, ht⟩
    · exact .inl (h.source_mem s hold)
    · exact .inr (Event.mem_registers_of_dependency ht)
  recorded n r c hc := by
    rw [DependencyGraph.dependencies, edges_accept, DependencyGraph.mem_targetsIn_foldl]
    exact (v.dependency_of_reference?_accept hc).imp_left (h.recorded n r c)

/-- Events keep the graph fitting. -/
theorem foldl_accept (h : v.Linked) (evs : List Event) : (evs.foldl Validator.accept v).Linked := by
  induction evs generalizing v with
  | nil => exact h
  | cons ev evs ih => exact ih (h.accept ev)

/-- Checking an entity changes only the errors. -/
theorem checkEntity (h : v.Linked) (name : String) : (v.checkEntity name).Linked := by
  unfold Validator.checkEntity
  split
  · exact h
  · exact h.withErrors _

/-- Events keep the graph fitting, up to the one that fails. -/
theorem feed (h : v.Linked) (evs : List Event) : (EntityModel.feed evs v).1.Linked := by
  induction evs generalizing v with
  | nil => exact h
  | cons ev evs ih =>
    unfold EntityModel.feed
    cases hname : ev.nameError? with
    | some f => exact h
    | none =>
      rw [handle_eq_ok v ev hname]
      exact ih (h.accept ev)

/-- Validating an entity alone keeps the graph fitting, also where it fails halfway. -/
theorem normalizeEntity (h : v.Linked) (name : String) (e : Entity) :
    (v.normalizeEntity name e).2.Linked := by
  have hfed := h.feed (e.events name)
  unfold Validator.normalizeEntity
  rcases hfeed : EntityModel.feed (e.events name) v with ⟨w, _ | f⟩
  · rw [hfeed] at hfed
    exact hfed.checkEntity name
  · rw [hfeed] at hfed
    exact hfed

/-- Every call keeps the graph fitting. -/
theorem perform (h : v.Linked) (op : Operation) : (v.perform op).Linked := by
  cases op with
  | handle ev =>
    cases hname : ev.nameError? with
    | some f => simpa [Validator.perform, Consumer.handle, hname] using h
    | none => simpa [Validator.perform, handle_eq_ok v ev hname] using h.accept ev
  | normalizeAttribute entity name c => exact h.withErrors _
  | normalizeReference entity name c => exact h.withErrors _
  | normalizeEntity name e => exact h.normalizeEntity name e
  | checkEntity name => exact h.checkEntity name
  | checkTarget entity name target =>
    rw [Validator.perform, checkTarget_eq]
    exact h.withErrors _
  | checkTargets =>
    rw [Validator.perform, checkTargets_snd]
    exact h.withErrors _

/-- Calls keep the graph fitting. -/
theorem foldl_perform (h : v.Linked) (ops : List Operation) :
    (ops.foldl Validator.perform v).Linked := by
  induction ops generalizing v with
  | nil => exact h
  | cons op ops ih => exact ih (h.perform op)

/-! ## Unknown targets -/

/-- An entity that refers to something unknown is blocked. -/
theorem blocked_of_unknown (h : v.Linked) {n r : String} {c : NormalizedReference}
    (hc : v.model.reference? n r = some c) (hunknown : c.target ∉ v.model.names) :
    n ∈ v.graph.nodes ∧ Blocked (targetsIn v.graph.edges) v.graph.nodes n := by
  obtain ⟨e, he, -⟩ := Option.bind_eq_some_iff.1 hc
  have hn : n ∈ v.graph.nodes := h.nodes_eq ▸ OrderedMap.mem_keys_of_find? he
  have hedge : DependsOn (targetsIn v.graph.edges) v.graph.nodes n c.target :=
    ⟨hn, h.recorded n r c hc⟩
  have htarget : c.target ∉ v.graph.nodes := h.nodes_eq ▸ hunknown
  exact ⟨hn, hedge.blocked (.of_notMem htarget)⟩

open Classical in
/-- Where there are unknown targets there is no order, and the entities that refer to them are
among those that are left. -/
theorem order_of_unknown (h : v.Linked) (hunknown : v.unknownTargets ≠ []) :
    ∃ stuck, v.order = .error stuck ∧ ∀ n r c, v.model.reference? n r = some c →
      c.target ∉ v.model.names → n ∈ stuck.unresolved := by
  have hleft := left_emissionOrder v.graph.nodes v.graph.edges
  have hmem : ∀ n r c, v.model.reference? n r = some c → c.target ∉ v.model.names →
      n ∈ (Placement.run (targetsIn v.graph.edges) [] v.graph.nodes.eraseDups).left := by
    intro n r c hc htarget
    obtain ⟨hn, hblocked⟩ := h.blocked_of_unknown hc htarget
    rw [hleft, List.mem_filter, decide_eq_true_eq]
    exact ⟨List.mem_eraseDups.2 hn, hblocked⟩
  cases horder : v.order with
  | error stuck =>
    have hstuck := Placement.of_order?_eq_error horder
    exact ⟨stuck, rfl, fun n r c hc htarget => hstuck ▸ hmem n r c hc htarget⟩
  | ok order =>
    -- Nothing would be left, but the entity of some unknown target is.
    have hnone := (Placement.order?_eq_ok_iff _).1 ⟨order, horder⟩
    obtain ⟨⟨n, r, target⟩, hm⟩ := List.exists_mem_of_ne_nil _ hunknown
    obtain ⟨c, hc, rfl, htarget⟩ := v.mem_unknownTargets.1 hm
    have hn := hmem n r c hc htarget
    rw [hnone] at hn
    cases hn

end Linked

end Validator

/-! ## Main statement -/

/-- After any calls of a validator, failed ones too, the nodes of its graph are its entities, edges
start at nodes, and every reference of its model is an edge. So if targets are unknown there is no
emission order, and what refers to them is unresolved. -/
theorem graph_linked_after_calls (t : ValidationTables) (ops : List Validator.Operation) :
    let v := ops.foldl Validator.perform (.ofTables t)
    v.graph.nodes = v.model.names ∧
      (∀ s ∈ v.graph.edges.keys, s ∈ v.graph.nodes) ∧
      (∀ n r c, v.model.reference? n r = some c → c.target ∈ v.graph.dependencies n) ∧
      (0 < v.checkTargets.1 → ∃ stuck, v.checkTargets.2.order = .error stuck ∧
        ∀ n r c, v.model.reference? n r = some c → c.target ∉ v.model.names →
          n ∈ stuck.unresolved) := by
  intro v
  have hlinked : v.Linked := (Validator.Linked.ofTables t).foldl_perform ops
  refine ⟨hlinked.nodes_eq, hlinked.source_mem, hlinked.recorded, fun hpos => ?_⟩
  rw [Validator.order_checkTargets]
  exact hlinked.order_of_unknown (List.length_pos_iff.1 hpos)

/-- An entity that nothing announced, and one that was declared again without its reference. -/
theorem graph_linked_after_calls_out_of_turn :
    let ops : List Validator.Operation :=
      [.handle (.declareReference "Pet" "owner" (.ofTarget (.text "Person"))),
        .handle (.declareEntity "" .empty),
        .handle (.declareEntity "Person" .empty),
        .handle (.declareReference "Person" "boss" (.ofTarget (.text "Ghost"))),
        .normalizeEntity "Pet" .empty]
    let v := ops.foldl Validator.perform (.ofTables .builtIn)
    v.model.names = ["Pet", "Person"] ∧ v.graph.dependencies "Pet" = ["Person"] ∧
      0 < v.checkTargets.1 ∧
      ∃ stuck, v.checkTargets.2.order = .error stuck ∧ "Person" ∈ stuck.unresolved := by
  intro ops v
  obtain ⟨-, -, -, hstuck⟩ := graph_linked_after_calls .builtIn ops
  have hpos : 0 < v.checkTargets.1 := by decide
  obtain ⟨stuck, horder, hmem⟩ := hstuck hpos
  have hboss : v.model.reference? "Person" "boss" = some ⟨"Ghost", "", .empty⟩ := by decide
  exact ⟨by decide, by decide, hpos, stuck, horder, hmem "Person" "boss" _ hboss (by decide)⟩

end EntityModel
