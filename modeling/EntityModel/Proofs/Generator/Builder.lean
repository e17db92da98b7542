import EntityModel.Generator
import EntityModel.Proofs.Validator.Targets

/-!
# The builder of a generator file

What one event makes of each part of the builder, and what a run of events does. The validator
inside takes part as by itself, with a check of each target (`Builder.validator_accept`). The vertex
of an entity is made by the events about it (`Builder.find?_vertices_foldl`), and the edges are
inserted one after the other (`Builder.edges_foldl_elements`), those of all entities into one map.
-/

namespace EntityModel

/-- The edge that an event stands for, under its name; a reference has one if it is known, as the
one given. -/
def Event.edge? (ns : String) (known : Option NormalizedReference) :
    Event → Option (String × Generator.Edge)
  | .declareReference entity name _ => known.map fun r =>
      (Generator.edgeName entity name, ⟨entity, r.target, r.description, r.upperBound? ns⟩)
  | _ => none

namespace Generator

/-- What an event makes of the vertex of the entity that it is about. -/
def vertexAfter (t : ValidationTables) (o : Option Vertex) : Event → Option Vertex
  | .declareEntity _ e => some ⟨e.description.getD "", .empty⟩
  | .declareAttribute _ name c => o.map fun v =>
      { v with attributes := v.attributes.insert name (t.complete c).typeName }
  | .declareReference _ _ _ | .finish => o

namespace Builder

variable (b : Builder)

/-! ## The parts of a builder after an event -/

/-- A builder takes every event about a named element. -/
theorem handle_eq_ok (ev : Event) (h : ev.nameError? = none) :
    Consumer.handle b ev = .ok (b.accept ev) := by
  simp only [Consumer.handle, h]

/-- The validator inside checks each target when its reference is handled. -/
theorem validator_accept (ev : Event) :
    (b.accept ev).validator = (b.validator.acceptChecked ev).2 := by
  unfold accept
  rcases b.validator.acceptChecked ev with ⟨_ | r, v⟩ <;> cases ev <;> rfl

/-- An event changes neither the namespace of annotations nor the number of iterations. -/
theorem accept_eq (ev : Event) : b.accept ev =
    ⟨(b.accept ev).validator, b.ns, (b.accept ev).vertices, (b.accept ev).edges, b.iterations⟩ := by
  unfold accept
  rcases b.validator.acceptChecked ev with ⟨_ | r, v⟩ <;> cases ev <;> rfl

/-- The entities after an event are those of the validator by itself. -/
theorem model_accept (ev : Event) :
    (b.accept ev).validator.model = (b.validator.accept ev).model := by
  obtain ⟨rows, hrows⟩ := b.validator.acceptChecked_snd ev
  rw [validator_accept, hrows, Validator.model_withErrors]

/-- An event does not change the tables. -/
@[simp] theorem tables_accept (ev : Event) :
    (b.accept ev).validator.tables = b.validator.tables := by
  obtain ⟨rows, hrows⟩ := b.validator.acceptChecked_snd ev
  rw [validator_accept, hrows, Validator.tables_withErrors, Validator.tables_accept]

/-- An event does not change the namespace of annotations. -/
@[simp] theorem ns_accept (ev : Event) : (b.accept ev).ns = b.ns := by
  rw [accept_eq]

/-- An event adds a vertex for the entity that it declares. -/
theorem keys_vertices_accept (ev : Event) :
    (b.accept ev).vertices.keys =
      ev.declares.foldl (fun ns n => DependencyGraph.addName n ns) b.vertices.keys := by
  cases ev with
  | declareEntity name e => exact OrderedMap.keys_insert_eq_addName ..
  | declareAttribute entity name c => exact OrderedMap.keys_modify ..
  | declareReference entity name c =>
    unfold accept
    rcases b.validator.acceptChecked (.declareReference entity name c) with ⟨_ | r, v⟩ <;> rfl
  | finish => rfl

/-- An event changes the vertex of the entity that it is about, and no other. -/
theorem find?_vertices_accept (ev : Event) (n : String) :
    (b.accept ev).vertices.find? n =
      if ev.entity? = some n then vertexAfter b.validator.tables (b.vertices.find? n) ev
      else b.vertices.find? n := by
  cases ev with
  | declareEntity name e => simp [accept, addVertex, Event.entity?, vertexAfter]
  | declareAttribute entity name c =>
    have htype : (((b.validator.accept (.declareAttribute entity name c)).model.attribute? entity
        name).getD c).typeName = (b.validator.tables.complete c).typeName := by
      rw [Validator.attribute?_accept, Option.getD_some]
    have hfind : (b.accept (.declareAttribute entity name c)).vertices.find? n =
        if n = entity then vertexAfter b.validator.tables (b.vertices.find? n)
          (.declareAttribute entity name c)
        else b.vertices.find? n := by
      simp only [vertexAfter, ← htype]
      exact OrderedMap.find?_modify ..
    rw [hfind]
    by_cases h : entity = n
    · simp [Event.entity?, h]
    · simp [Event.entity?, h, Ne.symm h]
  | declareReference entity name c =>
    unfold accept
    rcases b.validator.acceptChecked (.declareReference entity name c) with ⟨_ | r, v⟩ <;>
      simp [addEdge, vertexAfter]
  | finish => simp [accept, Event.entity?]

/-- An event inserts the edge that it stands for, if its check gives a reference. -/
theorem edges_accept (ev : Event) :
    (b.accept ev).edges =
      b.edges.insertAll (ev.edge? b.ns (b.validator.acceptChecked ev).1).toList := by
  unfold accept
  rcases b.validator.acceptChecked ev with ⟨_ | r, v⟩ <;> cases ev <;> rfl

/-! ## Runs of events -/

/-- Events change neither the namespace of annotations nor the number of iterations. -/
theorem foldl_eq (evs : List Event) : evs.foldl accept b =
    ⟨(evs.foldl accept b).validator, b.ns, (evs.foldl accept b).vertices,
      (evs.foldl accept b).edges, b.iterations⟩ := by
  induction evs generalizing b with
  | nil => rfl
  | cons ev evs ih =>
    rw [List.foldl_cons, ih, accept_eq]

/-- Events make of the validator inside what they make of one by itself, but for the errors. -/
theorem model_foldl (evs : List Event) :
    (evs.foldl accept b).validator.model = (evs.foldl Validator.accept b.validator).model := by
  obtain ⟨r, hr⟩ := b.validator.foldl_acceptChecked evs
  rw [Validator.inner_foldl validator_accept, hr, Validator.model_withErrors]

/-- Events add vertices for the entities that they declare, in their order. -/
theorem keys_vertices_foldl (evs : List Event) :
    (evs.foldl accept b).vertices.keys =
      (evs.flatMap Event.declares).foldl (fun ns n => DependencyGraph.addName n ns)
        b.vertices.keys := by
  induction evs generalizing b with
  | nil => rfl
  | cons ev evs ih =>
    rw [List.foldl_cons, ih, keys_vertices_accept, List.flatMap_cons, List.foldl_append]

/-- A vertex is made by the events about its entity. -/
theorem find?_vertices_foldl (evs : List Event) (n : String) :
    (evs.foldl accept b).vertices.find? n =
      (evs.filter fun ev => ev.entity? = some n).foldl (vertexAfter b.validator.tables)
        (b.vertices.find? n) := by
  induction evs generalizing b with
  | nil => rfl
  | cons ev evs ih =>
    rw [List.foldl_cons, ih, tables_accept, find?_vertices_accept]
    by_cases h : ev.entity? = some n <;> simp [h]

/-- The declarations of entities insert no edges. -/
theorem edges_foldl_entities (es : List (String × Entity)) :
    ((es.map fun e => Event.declareEntity e.1 e.2).foldl accept b).edges = b.edges := by
  induction es generalizing b with
  | nil => rfl
  | cons e es ih => exact ih _

/-- The elements that are awaited insert the edges of those references whose targets are
entities. -/
theorem edges_foldl_elements {names : List String} {evs : List Event}
    (hnames : b.validator.model.names = names) (h : b.validator.Awaits evs) :
    (evs.foldl accept b).edges =
      b.edges.insertAll (evs.filterMap fun ev => ev.edge? b.ns (ev.known? names)) := by
  induction evs generalizing b with
  | nil => rfl
  | cons ev evs ih =>
    have hafter : (b.accept ev).validator.model.names = names := by
      rw [model_accept, h.names_accept, hnames]
    have hknown : (b.validator.acceptChecked ev).1 = ev.known? names :=
      hnames ▸ h.acceptChecked_fst
    rw [List.foldl_cons, ih (b.accept ev) hafter (h.accept.of_model_eq (b.model_accept ev)),
      edges_accept, hknown, ns_accept, OrderedMap.insertAll, OrderedMap.insertAll,
      OrderedMap.insertAll, ← List.foldl_append]
    cases hedge : ev.edge? b.ns (ev.known? names) <;> simp [hedge]

end Builder

end Generator

end EntityModel
