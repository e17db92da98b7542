import EntityModel.Proofs.ErrorRecord
import EntityModel.Proofs.Order.Graph
import EntityModel.Proofs.Parse.Events
import EntityModel.Validator

/-!
# What one event makes of a validator

Each part of a validator after an event, in terms of the parts before it: its entities
(`Validator.names_accept`, `Validator.find?_accept`) and its errors (`Validator.errors_accept`).
An entity is changed by the events about it alone, as `ValidationTables.entityAfter` says, and what
an event files is a list of rows, `Validator.findings`, of which those in `Event.findings` depend on
the tables alone.
-/

namespace EntityModel

/-! ## What an event says by itself -/

/-- The entities that an event adds where they are missing. -/
def Event.registers : Event → List String
  | .declareEntity name _ => [name]
  | .declareAttribute entity _ _ => [entity]
  | .declareReference entity _ c => if c.complete?.isSome then [entity] else []
  | .finish => []

/-- An event adds no entity but the one that it is about. -/
theorem Event.entity?_of_mem_registers {ev : Event} {n : String} (h : n ∈ ev.registers) :
    ev.entity? = some n := by
  cases ev with
  | declareEntity name e => exact congrArg some (List.mem_singleton.1 h).symm
  | declareAttribute entity name c => exact congrArg some (List.mem_singleton.1 h).symm
  | declareReference entity name c =>
    simp only [registers] at h
    split at h
    · exact congrArg some (List.mem_singleton.1 h).symm
    · cases h
  | finish => cases h

/-- The rows that an event gives, whatever came before it. -/
def Event.findings (t : ValidationTables) : Event → List ErrorRow
  | .declareEntity name e => (t.collisions e).map fun a =>
      ⟨ErrorRecord.fileName (some name), .attributeItem, a, ValidationTables.collisionError a⟩
  | .declareAttribute entity name c => (t.attributeErrors c).map fun m =>
      ⟨ErrorRecord.fileName (some entity), .attributeItem, name, m⟩
  | .declareReference entity name c => c.errors.map fun m =>
      ⟨ErrorRecord.fileName (some entity), .referenceItem, name, m⟩
  | .finish => []

/-- What an event makes of the entity that it is about. -/
def ValidationTables.entityAfter (t : ValidationTables) (o : Option NormalizedEntity) :
    Event → Option NormalizedEntity
  | .declareEntity _ e => some ⟨e.description.getD "", t.injected e, .empty⟩
  | .declareAttribute _ name c =>
    let ne := o.getD .empty
    some { ne with attributes := ne.attributes.insert name (t.complete c) }
  | .declareReference _ name c =>
    match c.complete? with
    | none => o
    | some r =>
      let ne := o.getD .empty
      some { ne with references := ne.references.insert name r }
  | .finish => o

/-- The row about an entity as a whole. -/
def ErrorRow.ofObject (entity message : String) : ErrorRow :=
  ⟨ErrorRecord.fileName (some entity), .wholeObject, ErrorRecord.wholeEntity, message⟩

/-- The rows about those of the given entities that are without a key. -/
def NormalizedModel.keyRows (m : NormalizedModel) (names : List String) : List ErrorRow :=
  (names.filter fun n => !(m.find? n).any NormalizedEntity.hasKey).map fun n =>
    .ofObject n Validator.noKeyError

namespace Validator

/-- The row about an entity that is missing where its elements are handled. -/
def missingRows (v : Validator) (entity : String) : List ErrorRow :=
  if v.model.contains entity then [] else [.ofObject entity notInitializedError]

/-- The rows that an event files. -/
def findings (v : Validator) (ev : Event) : List ErrorRow :=
  ev.findings v.tables ++
    match ev with
    | .declareEntity _ _ => []
    | .declareAttribute entity _ _ => v.missingRows entity
    | .declareReference entity _ c => if c.complete?.isSome then v.missingRows entity else []
    | .finish => v.model.keyRows v.model.names

section
variable (v : Validator)

/-! ## Filing -/

@[simp] theorem tables_fileAttribute (entity name : String) (ms : List String) :
    (v.fileAttribute entity name ms).tables = v.tables := rfl

@[simp] theorem model_fileAttribute (entity name : String) (ms : List String) :
    (v.fileAttribute entity name ms).model = v.model := rfl

@[simp] theorem errors_fileAttribute (entity name : String) (ms : List String) :
    (v.fileAttribute entity name ms).errors = v.errors.addAll (ms.map fun m =>
      ⟨ErrorRecord.fileName (some entity), .attributeItem, name, m⟩) := by
  rw [ErrorRecord.addAll, List.foldl_map]
  rfl

@[simp] theorem tables_fileReference (entity name : String) (ms : List String) :
    (v.fileReference entity name ms).tables = v.tables := rfl

@[simp] theorem model_fileReference (entity name : String) (ms : List String) :
    (v.fileReference entity name ms).model = v.model := rfl

@[simp] theorem graph_fileReference (entity name : String) (ms : List String) :
    (v.fileReference entity name ms).graph = v.graph := rfl

@[simp] theorem errors_fileReference (entity name : String) (ms : List String) :
    (v.fileReference entity name ms).errors = v.errors.addAll (ms.map fun m =>
      ⟨ErrorRecord.fileName (some entity), .referenceItem, name, m⟩) := by
  rw [ErrorRecord.addAll, List.foldl_map]
  rfl

/-- Checking entities changes only the errors, by the rows about those without a key. -/
theorem foldl_checkEntity (names : List String) :
    names.foldl checkEntity v = { v with errors := v.errors.addAll (v.model.keyRows names) } := by
  induction names generalizing v with
  | nil => rfl
  | cons n names ih =>
    rw [List.foldl_cons, ih]
    unfold checkEntity NormalizedModel.keyRows
    split
    · next h => simp [h]
    · next h =>
      simp [h, fileObject, ErrorRecord.recordObject, ErrorRecord.record, ErrorRow.ofObject]

/-! ## Adding and changing entities -/

@[simp] theorem tables_ensureEntity (entity : String) :
    (v.ensureEntity entity).tables = v.tables := by
  unfold ensureEntity
  split <;> rfl

@[simp] theorem names_ensureEntity (entity : String) :
    (v.ensureEntity entity).model.names = DependencyGraph.addName entity v.model.names := by
  unfold ensureEntity
  split
  · next h =>
    have hmem : entity ∈ v.model.names := (v.model.entities.contains_eq_true).1 h
    exact (DependencyGraph.addName_of_mem hmem).symm
  · exact OrderedMap.keys_insert_eq_addName ..

@[simp] theorem find?_ensureEntity (entity n : String) :
    (v.ensureEntity entity).model.find? n =
      if entity = n then some ((v.model.find? entity).getD .empty) else v.model.find? n := by
  unfold ensureEntity
  split
  · next h =>
    obtain ⟨e, he⟩ := v.model.entities.exists_find?_of_mem (v.model.entities.contains_eq_true.1 h)
    split
    · next hn => simp [← hn, NormalizedModel.find?, he]
    · rfl
  · next h =>
    have hnone : v.model.entities.find? entity = none := by
      simpa [NormalizedModel.contains, OrderedMap.find?_eq_none] using h
    simp [NormalizedModel.find?, fileObject, hnone]

@[simp] theorem errors_ensureEntity (entity : String) :
    (v.ensureEntity entity).errors = v.errors.addAll (v.missingRows entity) := by
  unfold ensureEntity missingRows
  split <;> rfl

/-- Where the nodes of the graph are the entities, a missing entity becomes a node too. -/
theorem nodes_ensureEntity (h : v.graph.nodes = v.model.names) (entity : String) :
    (v.ensureEntity entity).graph.nodes = DependencyGraph.addName entity v.graph.nodes := by
  unfold ensureEntity
  split
  · next hcontains =>
    have hmem : entity ∈ v.graph.nodes := h ▸ (v.model.entities.contains_eq_true).1 hcontains
    exact (DependencyGraph.addName_of_mem hmem).symm
  · rfl

@[simp] theorem tables_modifyEntity (n : String) (f : NormalizedEntity → NormalizedEntity) :
    (v.modifyEntity n f).tables = v.tables := rfl

@[simp] theorem names_modifyEntity (n : String) (f : NormalizedEntity → NormalizedEntity) :
    (v.modifyEntity n f).model.names = v.model.names :=
  OrderedMap.keys_modify ..

@[simp] theorem find?_modifyEntity (n n' : String) (f : NormalizedEntity → NormalizedEntity) :
    (v.modifyEntity n f).model.find? n' =
      if n' = n then (v.model.find? n').map f else v.model.find? n' :=
  OrderedMap.find?_modify ..

@[simp] theorem errors_modifyEntity (n : String) (f : NormalizedEntity → NormalizedEntity) :
    (v.modifyEntity n f).errors = v.errors := rfl

/-- An attribute is judged, and put into its entity, which is added if it is missing. -/
theorem addAttribute_eq (entity name : String) (c : AttributeConfig) :
    v.addAttribute entity name c =
      ((v.fileAttribute entity name (v.tables.attributeErrors c)).ensureEntity entity).modifyEntity
        entity fun e => { e with attributes := e.attributes.insert name (v.tables.complete c) } :=
  rfl

/-- A reference without a usable target is judged only. -/
theorem addReference_of_none {entity name : String} {c : ReferenceConfig}
    (h : c.complete? = none) :
    v.addReference entity name c = v.fileReference entity name c.errors := by
  simp only [addReference, normalizeReference, h]

/-- A reference with a usable target is judged, and put into its entity and into the graph. -/
theorem addReference_of_some {entity name : String} {c : ReferenceConfig}
    {r : NormalizedReference} (h : c.complete? = some r) :
    v.addReference entity name c =
      let w := ((v.fileReference entity name c.errors).ensureEntity entity).modifyEntity entity
        fun e => { e with references := e.references.insert name r }
      { w with graph := w.graph.addEdge entity r.target } := by
  simp only [addReference, normalizeReference, h]

/-! ## The parts of a validator after an event -/

@[simp] theorem tables_accept (ev : Event) : (v.accept ev).tables = v.tables := by
  cases ev with
  | declareEntity name e => rfl
  | declareAttribute entity name c => simp [accept, addAttribute_eq]
  | declareReference entity name c =>
    cases h : c.complete? with
    | none => simp [accept, addReference_of_none v h]
    | some r => simp [accept, addReference_of_some v h]
  | finish => simp [accept, checkEntities, foldl_checkEntity]

/-- An event adds the entities that it registers, where they are missing. -/
theorem names_accept (ev : Event) :
    (v.accept ev).model.names =
      ev.registers.foldl (fun ns n => DependencyGraph.addName n ns) v.model.names := by
  cases ev with
  | declareEntity name e => exact OrderedMap.keys_insert_eq_addName ..
  | declareAttribute entity name c => simp [accept, addAttribute_eq, Event.registers]
  | declareReference entity name c =>
    cases h : c.complete? with
    | none => simp [accept, addReference_of_none v h, Event.registers, h]
    | some r =>
      simp only [accept, addReference_of_some v h, names_modifyEntity, names_ensureEntity,
        model_fileReference]
      simp [Event.registers, h]
  | finish => simp [accept, checkEntities, foldl_checkEntity, Event.registers]

/-- The nodes of the graph stay the entities. -/
theorem nodes_accept (h : v.graph.nodes = v.model.names) (ev : Event) :
    (v.accept ev).graph.nodes = (v.accept ev).model.names := by
  suffices hnodes : (v.accept ev).graph.nodes =
      ev.registers.foldl (fun ns n => DependencyGraph.addName n ns) v.graph.nodes by
    rw [hnodes, names_accept, h]
  cases ev with
  | declareEntity name e => rfl
  | declareAttribute entity name c =>
    exact (v.fileAttribute entity name (v.tables.attributeErrors c)).nodes_ensureEntity h entity
  | declareReference entity name c =>
    cases hc : c.complete? with
    | none => simp [accept, addReference_of_none v hc, Event.registers, hc]
    | some r =>
      have hregisters : (Event.declareReference entity name c).registers = [entity] := by
        simp [Event.registers, hc]
      rw [hregisters, accept, addReference_of_some v hc]
      exact (v.fileReference entity name c.errors).nodes_ensureEntity h entity
  | finish => simp [accept, checkEntities, foldl_checkEntity, Event.registers]

/-- An event changes the entity that it is about, and no other. -/
theorem find?_accept (ev : Event) (n : String) :
    (v.accept ev).model.find? n =
      if ev.entity? = some n then v.tables.entityAfter (v.model.find? n) ev
      else v.model.find? n := by
  cases ev with
  | declareEntity name e =>
    simp [accept, addEntity, NormalizedModel.find?, Event.entity?, ValidationTables.entityAfter]
  | declareAttribute entity name c =>
    by_cases h : entity = n
    · subst h
      simp [accept, addAttribute_eq, Event.entity?, ValidationTables.entityAfter]
    · simp [accept, addAttribute_eq, Event.entity?, h, Ne.symm h]
  | declareReference entity name c =>
    cases hc : c.complete? with
    | none => simp [accept, addReference_of_none v hc, ValidationTables.entityAfter, hc]
    | some r =>
      simp only [accept, addReference_of_some v hc, find?_modifyEntity, find?_ensureEntity,
        model_fileReference]
      by_cases h : entity = n
      · subst h
        simp [Event.entity?, ValidationTables.entityAfter, hc]
      · simp [Event.entity?, h, Ne.symm h]
  | finish => simp [accept, checkEntities, foldl_checkEntity, Event.entity?]

/-- An attribute has its defaults when it is there. -/
theorem attribute?_accept (entity name : String) (c : AttributeConfig) :
    (v.accept (.declareAttribute entity name c)).model.attribute? entity name =
      some (v.tables.complete c) := by
  simp [NormalizedModel.attribute?, find?_accept, Event.entity?, ValidationTables.entityAfter]

/-- An event files its findings. -/
theorem errors_accept (ev : Event) :
    (v.accept ev).errors = v.errors.addAll (v.findings ev) := by
  cases ev with
  | declareEntity name e =>
    simp only [accept, addEntity, findings, Event.findings, ErrorRecord.addAll, List.append_nil,
      List.foldl_map]
    rfl
  | declareAttribute entity name c =>
    simp only [accept, addAttribute_eq, errors_modifyEntity, errors_ensureEntity,
      errors_fileAttribute, findings, Event.findings, ErrorRecord.addAll_append]
    rfl
  | declareReference entity name c =>
    cases h : c.complete? with
    | none => simp [accept, addReference_of_none v h, findings, Event.findings, h]
    | some r =>
      simp only [accept, addReference_of_some v h, errors_modifyEntity, errors_ensureEntity,
        errors_fileReference, findings, Event.findings, ErrorRecord.addAll_append, h,
        Option.isSome_some, if_true]
      rfl
  | finish => simp [accept, checkEntities, foldl_checkEntity, findings, Event.findings]

end

end Validator

end EntityModel
