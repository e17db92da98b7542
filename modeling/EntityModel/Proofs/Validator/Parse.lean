import EntityModel.Proofs.Validator.Step

/-!
# What a whole parse makes of a validator

The fold of a validator over events, part by part, and then the parse of a model from the start:
its entities are the normalized ones of the model (`Model.model_validated`), and its errors are the
findings of the events in their order, followed by a row for each entity that is without a key then
(`Model.errors_validated`).
-/

namespace EntityModel

/-! ## Runs of events -/

/-- The event can come after the entities of these names: it declares an entity, or an element of
one of them. -/
def Event.Announced (names : List String) : Event → Prop
  | .declareEntity _ _ => True
  | .declareAttribute entity _ _ | .declareReference entity _ _ => entity ∈ names
  | .finish => False

/-- With more entities, more events can come. -/
theorem Event.Announced.mono {names names' : List String} {ev : Event} (h : ev.Announced names)
    (hsub : ∀ n ∈ names, n ∈ names') : ev.Announced names' := by
  cases ev with
  | declareEntity name e => trivial
  | declareAttribute entity name c => exact hsub entity h
  | declareReference entity name c => exact hsub entity h
  | finish => exact h

namespace Validator

variable (v : Validator)

@[simp] theorem tables_foldl (evs : List Event) : (evs.foldl accept v).tables = v.tables := by
  induction evs generalizing v with
  | nil => rfl
  | cons ev evs ih => rw [List.foldl_cons, ih, tables_accept]

/-- A validator takes every event about a named element. -/
theorem handle_eq_ok (v : Validator) (ev : Event) (h : ev.nameError? = none) :
    Consumer.handle v ev = .ok (v.accept ev) := by
  simp only [Consumer.handle, h]

/-- Events add the entities that they register, in their order. -/
theorem names_foldl (evs : List Event) :
    (evs.foldl accept v).model.names =
      (evs.flatMap Event.registers).foldl (fun ns n => DependencyGraph.addName n ns)
        v.model.names := by
  induction evs generalizing v with
  | nil => rfl
  | cons ev evs ih =>
    rw [List.foldl_cons, ih, names_accept, List.flatMap_cons, List.foldl_append]

/-- Events keep the nodes of the graph the entities. -/
theorem nodes_foldl {v : Validator} (h : v.graph.nodes = v.model.names) (evs : List Event) :
    (evs.foldl accept v).graph.nodes = (evs.foldl accept v).model.names := by
  induction evs generalizing v with
  | nil => exact h
  | cons ev evs ih => exact ih (v.nodes_accept h ev)

/-- An entity is made by the events about it. -/
theorem find?_foldl (evs : List Event) (n : String) :
    (evs.foldl accept v).model.find? n =
      (evs.filter fun ev => ev.entity? = some n).foldl v.tables.entityAfter
        (v.model.find? n) := by
  induction evs generalizing v with
  | nil => rfl
  | cons ev evs ih =>
    rw [List.foldl_cons, ih, tables_accept, find?_accept]
    by_cases h : ev.entity? = some n <;> simp [h]

/-- An event after the entities that it needs finds what it finds by itself. -/
theorem findings_of_announced {ev : Event} (h : ev.Announced v.model.names) :
    v.findings ev = ev.findings v.tables := by
  have hmissing : ∀ n ∈ v.model.names, v.missingRows n = [] := fun n hn =>
    if_pos (v.model.entities.contains_eq_true.2 hn)
  cases ev with
  | declareEntity name e => simp [findings]
  | declareAttribute entity name c => simp [findings, hmissing entity h]
  | declareReference entity name c => simp [findings, hmissing entity h]
  | finish => exact h.elim

/-- Events that can come after the entities there file what they find by themselves. -/
theorem errors_foldl_of_announced {evs : List Event}
    (h : ∀ ev ∈ evs, ev.Announced v.model.names) :
    (evs.foldl accept v).errors = v.errors.addAll (evs.flatMap (Event.findings v.tables)) := by
  induction evs generalizing v with
  | nil => rfl
  | cons ev evs ih =>
    have hrest : ∀ ev' ∈ evs, ev'.Announced (v.accept ev).model.names := by
      intro ev' hev'
      refine (h ev' (List.mem_cons_of_mem _ hev')).mono fun n hn => ?_
      rw [names_accept]
      exact DependencyGraph.mem_foldl_addName.2 (.inl hn)
    rw [List.foldl_cons, ih (v.accept ev) hrest, tables_accept, errors_accept,
      v.findings_of_announced (h ev (List.mem_cons_self ..)), List.flatMap_cons,
      ErrorRecord.addAll_append]

end Validator

/-! ## Normalized entities -/

namespace ValidationTables

variable (t : ValidationTables)

/-- The entity that is made of a declared one: the attributes of the table that it does not declare,
then its own with their defaults, and its references that have a usable target. -/
def normalized (e : Entity) : NormalizedEntity where
  description := e.description.getD ""
  attributes :=
    ⟨(t.injected e).entries ++ (e.attributes.mapValues fun _ a => t.complete a.config).entries, by
      rw [List.map_append, List.nodup_append]
      refine ⟨(t.injected e).nodup_keys, OrderedMap.nodup_keys _, fun a ha b hb hab => ?_⟩
      subst hab
      change a ∈ (t.injected e).keys at ha
      change a ∈ (e.attributes.mapValues fun _ a => t.complete a.config).keys at hb
      rw [OrderedMap.keys_mapValues, ← OrderedMap.contains_eq_true] at hb
      simp [injected, Entity.declares, hb] at ha⟩
  references := e.references.filterMapValues fun r => r.config.complete?

/-- The events about the attributes of an entity put them behind those it has. -/
theorem foldl_attributeEvents (n : String) (e : Entity) (ne : NormalizedEntity) :
    (e.attributeEvents n).foldl t.entityAfter (some ne) =
      some ⟨ne.description,
        ne.attributes.insertAll (e.attributes.mapValues fun _ a => t.complete a.config).entries,
        ne.references⟩ := by
  simp only [Entity.attributeEvents, OrderedMap.mapValues, OrderedMap.insertAll, List.foldl_map]
  generalize e.attributes.entries = as
  induction as generalizing ne with
  | nil => rfl
  | cons a as ih => exact ih _

/-- The events about the references of an entity put those with a usable target behind those it
has. -/
theorem foldl_referenceEvents (n : String) (e : Entity) (ne : NormalizedEntity) :
    (e.referenceEvents n).foldl t.entityAfter (some ne) =
      some ⟨ne.description, ne.attributes,
        ne.references.insertAll
          (e.references.filterMapValues fun r => r.config.complete?).entries⟩ := by
  simp only [Entity.referenceEvents, OrderedMap.filterMapValues, OrderedMap.insertAll,
    List.foldl_map]
  generalize e.references.entries = rs
  induction rs generalizing ne with
  | nil => rfl
  | cons r rs ih =>
    rw [List.foldl_cons, List.filterMap_cons]
    cases h : r.2.config.complete? with
    | none => simpa [entityAfter, h] using ih ne
    | some c => simpa [entityAfter, h] using ih _

/-- The events about an entity make it what it is normalized to. -/
theorem foldl_events (n : String) (e : Entity) (o : Option NormalizedEntity) :
    (e.events n).foldl t.entityAfter o = some (t.normalized e) := by
  rw [Entity.events, List.foldl_cons, List.foldl_append, entityAfter, foldl_attributeEvents,
    foldl_referenceEvents]
  have hattributes := (t.injected e).entries_insertAll (t.normalized e).attributes.nodup_keys
  have hreferences := OrderedMap.empty.entries_insertAll (t.normalized e).references.nodup_keys
  congr 2
  · exact OrderedMap.ext_entries hattributes
  · exact OrderedMap.ext_entries hreferences

/-- The model that is made of a declared one. -/
def normalizedModel (m : Model) : NormalizedModel :=
  ⟨m.entities.mapValues fun _ e => t.normalized e⟩

@[simp] theorem names_normalizedModel (m : Model) : (t.normalizedModel m).names = m.names :=
  OrderedMap.keys_mapValues ..

end ValidationTables

/-! ## The parse of a model -/

namespace Model

variable (t : ValidationTables) (m : Model)

/-- An element is one of an entity of the model. -/
theorem announced_of_mem_elementEvents {ev : Event} (h : ev ∈ m.elementEvents) :
    ev.Announced m.names := by
  rcases List.mem_append.1 h with h | h
  · obtain ⟨n, e, a, d, he, -, rfl⟩ := mem_attributeEvents.1 h
    exact OrderedMap.mem_keys_of_find? he
  · obtain ⟨n, e, r, d, he, -, rfl⟩ := mem_referenceEvents.1 h
    exact OrderedMap.mem_keys_of_find? he

/-- An element adds no entity that the model does not have. -/
theorem registers_of_mem_elementEvents {ev : Event} (h : ev ∈ m.elementEvents) :
    ∀ n ∈ ev.registers, n ∈ m.names := by
  intro n hn
  have hentity := Event.entity?_of_mem_registers hn
  rcases List.mem_append.1 h with h | h
  · obtain ⟨n', e, a, d, he, -, rfl⟩ := mem_attributeEvents.1 h
    cases hentity
    exact OrderedMap.mem_keys_of_find? he
  · obtain ⟨n', e, r, d, he, -, rfl⟩ := mem_referenceEvents.1 h
    cases hentity
    exact OrderedMap.mem_keys_of_find? he

/-- The validator after the first pass over a model. -/
def declared : Validator := m.entityEvents.foldl .accept (.ofTables t)

/-- The validator before the end of a parse. -/
def elaborated : Validator := m.elementEvents.foldl .accept (m.declared t)

/-- The validator after the parse of a model. -/
def validated : Validator := (m.elaborated t).checkEntities

/-- The passes of a parse, one after the other. -/
theorem foldl_events : m.events.foldl Validator.accept (.ofTables t) = m.validated t := by
  rw [events_eq, List.foldl_append, List.foldl_append]
  rfl

/-- A parse of a named model takes all its events. -/
theorem Named.parseWith_validator {m : Model} (h : m.Named) :
    m.parseWith (Validator.ofTables t) = (m.validated t, none) := by
  rw [← foldl_events]
  exact feed_eq_foldl Validator.handle_eq_ok h.nameError?_eq_none _

/-! ### Entities -/

/-- The first pass adds the entities of the model. -/
theorem names_declared : (m.declared t).model.names = m.names := by
  have hentities : m.entityEvents.flatMap Event.registers = m.names := by
    rw [entityEvents, List.flatMap_map]
    exact List.map_eq_flatMap.symm
  rw [declared, Validator.names_foldl, hentities]
  have hnodup : ([] ++ m.names).Nodup := m.entities.nodup_keys
  exact DependencyGraph.foldl_addName_of_nodup hnodup

/-- Elements of the model add no entities to a validator that has them all. -/
theorem names_foldl_elements {v : Validator} (hv : v.model.names = m.names) {evs : List Event}
    (hevs : ∀ ev ∈ evs, ev ∈ m.elementEvents) : (evs.foldl .accept v).model.names = m.names := by
  rw [Validator.names_foldl, hv]
  refine DependencyGraph.foldl_addName_of_subset fun n hn => ?_
  obtain ⟨ev, hev, hn⟩ := List.mem_flatMap.1 hn
  exact m.registers_of_mem_elementEvents (hevs ev hev) n hn

/-- The passes over a model make its entities, normalized. -/
theorem model_elaborated : (m.elaborated t).model = t.normalizedModel m := by
  have hnames : (m.elaborated t).model.names = m.names :=
    m.names_foldl_elements (m.names_declared t) fun _ h => h
  refine congrArg NormalizedModel.mk (OrderedMap.ext_find? ?_ fun n hn => ?_)
  · rw [OrderedMap.keys_mapValues]
    exact hnames
  · obtain ⟨e, he⟩ := m.entities.exists_find?_of_mem (show n ∈ m.names from hnames ▸ hn)
    have hfold : m.elaborated t = (m.entityEvents ++ m.elementEvents).foldl .accept (.ofTables t) :=
      List.foldl_append.symm
    have hfind := Validator.find?_foldl (.ofTables t) (m.entityEvents ++ m.elementEvents) n
    rw [← hfold, filter_passes he] at hfind
    rw [OrderedMap.find?_mapValues, he]
    exact hfind.trans (t.foldl_events n e _)

/-- The parse of a model has its entities, normalized. -/
theorem model_validated : (m.validated t).model = t.normalizedModel m := by
  rw [validated, Validator.checkEntities, Validator.foldl_checkEntity]
  exact m.model_elaborated t

/-- The entities of a model are what is put in order after its parse. -/
theorem nodes_validated : (m.validated t).graph.nodes = m.names := by
  rw [← foldl_events, Validator.nodes_foldl rfl, foldl_events, model_validated,
    ValidationTables.names_normalizedModel]

/-! ### Errors -/

/-- The rows that the elements of a model give. -/
def elementRows : List ErrorRow :=
  (m.entityEvents ++ m.elementEvents).flatMap (Event.findings t)

/-- After the first pass and some elements of a model, the errors are what these give. -/
theorem errors_foldl_elements {evs : List Event} (hevs : ∀ ev ∈ evs, ev ∈ m.elementEvents) :
    (evs.foldl .accept (m.declared t)).errors =
      ErrorRecord.empty.addAll ((m.entityEvents ++ evs).flatMap (Event.findings t)) := by
  have hdeclared : (m.declared t).errors =
      ErrorRecord.empty.addAll (m.entityEvents.flatMap (Event.findings t)) := by
    refine Validator.errors_foldl_of_announced (.ofTables t) fun ev hev => ?_
    obtain ⟨n, e, -, rfl⟩ := mem_entityEvents.1 hev
    trivial
  have htables : (m.declared t).tables = t := Validator.tables_foldl ..
  rw [Validator.errors_foldl_of_announced, hdeclared, htables, List.flatMap_append,
    ErrorRecord.addAll_append]
  intro ev hev
  rw [names_declared]
  exact m.announced_of_mem_elementEvents (hevs ev hev)

/-- Before the end of a parse, the errors are what its elements give. -/
theorem errors_elaborated :
    (m.elaborated t).errors = ErrorRecord.empty.addAll (m.elementRows t) :=
  m.errors_foldl_elements t fun _ hev => hev

/-- The errors after a parse are what its elements give, and a row for each normalized entity that
is without a key. -/
theorem errors_validated :
    (m.validated t).errors = ErrorRecord.empty.addAll
      (m.elementRows t ++ (t.normalizedModel m).keyRows m.names) := by
  rw [validated, Validator.checkEntities, Validator.foldl_checkEntity, model_elaborated,
    errors_elaborated, ValidationTables.names_normalizedModel, ErrorRecord.addAll_append]

/-- The errors after a parse are well filed. -/
theorem wellFiled_validated : (m.validated t).errors.WellFiled := by
  rw [errors_validated]
  exact ErrorRecord.WellFiled.empty.addAll _

end Model

end EntityModel
