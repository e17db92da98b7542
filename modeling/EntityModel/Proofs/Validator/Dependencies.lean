import EntityModel.Proofs.Validator.Targets

/-!
# The dependencies that a validator records

A reference with a usable target stands for a dependency of its entity on the target. An event
records the dependencies that it declares (`Event.dependencies`), and nothing else changes the edges
of the graph (`Validator.edges_accept`, `Validator.edges_foldl`). So after the parse of a model the
edges are what the references of the normalized model say (`Model.mem_dependencies_validated`).
-/

namespace EntityModel

/-- The dependency that an event declares, as a source and a target. -/
def Event.dependencies : Event → List (String × String)
  | .declareReference entity _ c => (c.complete?.map fun r => (entity, r.target)).toList
  | _ => []

/-- The source of a dependency is an entity that its event registers. -/
theorem Event.mem_registers_of_dependency {ev : Event} {s x : String}
    (h : (s, x) ∈ ev.dependencies) : s ∈ ev.registers := by
  cases ev with
  | declareReference entity name c =>
    cases hc : c.complete? with
    | none => simp [dependencies, hc] at h
    | some r =>
      obtain ⟨rfl, -⟩ : s = entity ∧ x = r.target := by simpa [dependencies, hc] using h
      simp [registers, hc]
  | _ => cases h

namespace Validator

variable (v : Validator)

@[simp] theorem edges_ensureEntity (entity : String) :
    (v.ensureEntity entity).graph.edges = v.graph.edges := by
  unfold ensureEntity
  split <;> rfl

/-- An event records the dependencies that it declares. -/
theorem edges_accept (ev : Event) :
    (v.accept ev).graph.edges =
      ev.dependencies.foldl DependencyGraph.recordEdge v.graph.edges := by
  cases ev with
  | declareEntity name e => rfl
  | declareAttribute entity name c =>
    exact (v.fileAttribute entity name (v.tables.attributeErrors c)).edges_ensureEntity entity
  | declareReference entity name c =>
    cases h : c.complete? with
    | none => simp [accept, addReference_of_none v h, Event.dependencies, h]
    | some r =>
      have hedges : (v.accept (.declareReference entity name c)).graph.edges =
          DependencyGraph.recordEdge
            ((v.fileReference entity name c.errors).ensureEntity entity).graph.edges
            (entity, r.target) := by
        rw [accept, addReference_of_some v h]
        rfl
      rw [hedges, edges_ensureEntity, graph_fileReference]
      simp [Event.dependencies, h]
  | finish => simp [accept, checkEntities, foldl_checkEntity, Event.dependencies]

/-- Events record the dependencies that they declare, in their order. -/
theorem edges_foldl (evs : List Event) :
    (evs.foldl accept v).graph.edges =
      (evs.flatMap Event.dependencies).foldl DependencyGraph.recordEdge v.graph.edges := by
  induction evs generalizing v with
  | nil => rfl
  | cons ev evs ih =>
    rw [List.foldl_cons, ih, edges_accept, List.flatMap_cons, List.foldl_append]

/-- A reference that an event leaves was there before, or stands for a dependency that the event
declares. -/
theorem dependency_of_reference?_accept {ev : Event} {n r : String} {c : NormalizedReference}
    (h : (v.accept ev).model.reference? n r = some c) :
    v.model.reference? n r = some c ∨ (n, c.target) ∈ ev.dependencies := by
  cases ev with
  | declareReference entity name config =>
    rw [reference?_accept] at h
    split at h
    · next hsame =>
      obtain ⟨rfl, rfl⟩ := hsame
      cases hc : config.complete? with
      | none => exact .inl (by simpa [hc] using h)
      | some reference =>
        obtain rfl : reference = c := by simpa [hc] using h
        exact .inr (by simp [Event.dependencies, hc])
    · exact .inl h
  | _ => exact .inl (v.reference?_of_accept rfl h)

end Validator

namespace Model

variable (t : ValidationTables) (m : Model)

/-- The edges after a parse are the dependencies that the events of the model declare. -/
theorem edges_validated :
    (m.validated t).graph.edges =
      (m.events.flatMap Event.dependencies).foldl DependencyGraph.recordEdge .empty := by
  rw [← foldl_events, Validator.edges_foldl]
  rfl

/-- A dependency that a model declares is a reference with a usable target. -/
theorem mem_dependencies_events {s x : String} :
    (s, x) ∈ m.events.flatMap Event.dependencies ↔
      ∃ r c, (t.normalizedModel m).reference? s r = some c ∧ c.target = x := by
  simp only [List.mem_flatMap, reference?_normalizedModel]
  constructor
  · rintro ⟨ev, hev, hdep⟩
    rcases mem_events.1 hev with
      ⟨n, e, he, rfl⟩ | ⟨n, e, a, d, he, hd, rfl⟩ | ⟨n, e, r, d, he, hd, rfl⟩ | rfl
    · cases hdep
    · cases hdep
    · rw [Event.dependencies, Option.mem_toList, Option.map_eq_some_iff] at hdep
      obtain ⟨c, hc, hpair⟩ := hdep
      cases hpair
      exact ⟨r, c, ⟨e, d, he, hd, hc⟩, rfl⟩
    · cases hdep
  · rintro ⟨r, c, ⟨e, d, he, hd, hc⟩, rfl⟩
    refine ⟨.declareReference s r d.config, ?_, ?_⟩
    · exact mem_events.2 (.inr (.inr (.inl ⟨s, e, r, d, he, hd, rfl⟩)))
    · rw [Event.dependencies, hc]
      exact List.mem_singleton_self _

/-- After a parse, the dependencies of an entity are the targets of its normalized references. -/
theorem mem_dependencies_validated {s x : String} :
    x ∈ (m.validated t).graph.dependencies s ↔
      ∃ r c, (t.normalizedModel m).reference? s r = some c ∧ c.target = x := by
  rw [DependencyGraph.dependencies, edges_validated, DependencyGraph.mem_targetsIn_foldl,
    mem_dependencies_events t]
  exact or_iff_right List.not_mem_nil

/-- After a parse, no edge is listed twice. -/
theorem nodup_edgeList_validated : (m.validated t).graph.edgeList.Nodup := by
  have hempty : ∀ s, (targetsIn .empty s).Nodup := fun _ => List.nodup_nil
  refine DependencyGraph.nodup_edgeList fun s => ?_
  rw [DependencyGraph.dependencies, edges_validated]
  exact DependencyGraph.nodup_targetsIn_foldl hempty s

end Model

end EntityModel
