import EntityModel.Proofs.Validator.Defects
import EntityModel.Proofs.Validator.Operations

/-!
# Entities validated one by one

An entity can be validated alone, from its declaration to the check of its key
(`Validator.normalizeEntity`), where a parse goes over all entities three times and checks the keys
in the end. An entity is made by the events about it and a dependency is recorded by the reference
that stands for it, so that the order of entities among each other does not matter to them: both
ways make the same model and the same graph, and find the same rows (`normalizeEach_eq_parse`).
-/

namespace EntityModel

/-! ## One entity alone -/

/-- The rows about an entity alone: what its events give, and the lack of a key. -/
def Entity.rows (t : ValidationTables) (n : String) (e : Entity) : List ErrorRow :=
  (e.events n).flatMap (Event.findings t) ++
    if (t.normalized e).hasKey then [] else [.ofObject n Validator.noKeyError]

namespace Validator

variable (v : Validator) (n : String) (e : Entity)

/-- The events about an entity make it what it is normalized to, whatever was there. -/
theorem find?_foldl_entity :
    ((e.events n).foldl accept v).model.find? n = some (v.tables.normalized e) := by
  have hown : (e.events n).filter (fun ev => ev.entity? = some n) = e.events n :=
    List.filter_eq_self.2 fun ev hev => by simpa using e.entity?_of_mem_events hev
  rw [find?_foldl, hown, ValidationTables.foldl_events]

/-- The events about an entity add it, where it is missing. -/
theorem names_foldl_entity :
    ((e.events n).foldl accept v).model.names = DependencyGraph.addName n v.model.names := by
  rw [names_foldl, Entity.events, List.flatMap_cons, List.foldl_append]
  refine DependencyGraph.foldl_addName_of_subset fun n' hn' => ?_
  obtain ⟨ev, hev, hn'⟩ := List.mem_flatMap.1 hn'
  have hentity := e.entity?_of_mem_events (List.mem_cons_of_mem (.declareEntity n e) hev)
  obtain rfl : n = n' :=
    Option.some.inj (hentity.symm.trans (Event.entity?_of_mem_registers hn'))
  exact DependencyGraph.mem_addName.2 (.inr rfl)

/-- The events about an entity file what they find by themselves. -/
theorem errors_foldl_entity :
    ((e.events n).foldl accept v).errors =
      v.errors.addAll ((e.events n).flatMap (Event.findings v.tables)) := by
  have hn : n ∈ (v.accept (.declareEntity n e)).model.names := by
    rw [names_accept]
    exact DependencyGraph.mem_addName.2 (.inr rfl)
  have hannounced : ∀ ev ∈ e.attributeEvents n ++ e.referenceEvents n,
      ev.Announced (v.accept (.declareEntity n e)).model.names := by
    intro ev hev
    rcases List.mem_append.1 hev with hev | hev
    · obtain ⟨a, -, rfl⟩ := List.mem_map.1 hev
      exact hn
    · obtain ⟨r, -, rfl⟩ := List.mem_map.1 hev
      exact hn
  have hdeclared : v.findings (.declareEntity n e) = (Event.declareEntity n e).findings v.tables :=
    List.append_nil _
  rw [Entity.events, List.foldl_cons, errors_foldl_of_announced _ hannounced, errors_accept,
    tables_accept, hdeclared, List.flatMap_cons, ErrorRecord.addAll_append]

/-- The check of a single entity files a row if it is without a key. -/
theorem checkEntity_eq {ne : NormalizedEntity} (h : v.model.find? n = some ne) :
    v.checkEntity n =
      v.withErrors (v.errors.addAll (if ne.hasKey then [] else [.ofObject n noKeyError])) := by
  have hcheck : v.checkEntity n = v.withErrors (v.errors.addAll (v.model.keyRows [n])) :=
    v.foldl_checkEntity [n]
  rw [hcheck]
  cases hkey : ne.hasKey <;> simp [NormalizedModel.keyRows, h, hkey]

/-- A named entity that is validated alone gives what it is normalized to, by its own events. -/
theorem normalizeEntity_eq (hnamed : ∀ ev ∈ e.events n, ev.nameError? = none) :
    v.normalizeEntity n e = (.ok (v.tables.normalized e),
      ((e.events n).foldl accept v).withErrors (v.errors.addAll (e.rows v.tables n))) := by
  have hfeed := feed_eq_foldl handle_eq_ok hnamed v
  have hfind := v.find?_foldl_entity n e
  simp only [normalizeEntity, hfeed, checkEntity_eq _ _ hfind, model_withErrors, hfind,
    Option.getD_some, errors_foldl_entity, Entity.rows, ErrorRecord.addAll_append]

/-! ## All entities, one by one -/

/-- Validates entities one by one, each alone; gives what they have become. -/
def normalizeEach (v : Validator) :
    List (String × Entity) → List (Except FatalError NormalizedEntity) × Validator
  | [] => ([], v)
  | e :: es =>
    let (result, v) := v.normalizeEntity e.1 e.2
    let (results, v) := v.normalizeEach es
    (result :: results, v)

/-- Entities that are validated one by one are taken event by event, but for the errors. -/
theorem normalizeEach_eq {es : List (String × Entity)}
    (hnamed : ∀ e ∈ es, ∀ ev ∈ e.2.events e.1, ev.nameError? = none) :
    v.normalizeEach es = (es.map fun e => .ok (v.tables.normalized e.2),
      ((es.flatMap fun e => e.2.events e.1).foldl accept v).withErrors
        (v.errors.addAll (es.flatMap fun e => e.2.rows v.tables e.1))) := by
  induction es generalizing v with
  | nil => rfl
  | cons e es ih =>
    have hrest := fun e' he' => hnamed e' (List.mem_cons_of_mem _ he')
    -- The row about a key comes before the next entity, which does not look at the errors.
    obtain ⟨r, hr⟩ := ((e.2.events e.1).foldl accept v).foldl_accept_withErrors
      (v.errors.addAll (e.2.rows v.tables e.1)) (es.flatMap fun e => e.2.events e.1)
    have htables := v.tables_foldl (e.2.events e.1)
    rw [normalizeEach, v.normalizeEntity_eq e.1 e.2 (hnamed e (List.mem_cons_self ..))]
    simp only [ih _ hrest, hr, tables_withErrors, htables, errors_withErrors,
      withErrors_withErrors, List.flatMap_cons, List.foldl_append, ErrorRecord.addAll_append,
      List.map_cons]

end Validator

namespace Model

variable (t : ValidationTables) (m : Model)

/-- The events of a model, entity by entity. -/
def entitywise : List Event := m.entities.entries.flatMap fun e => e.2.events e.1

/-- Taken entity by entity, the events of a model add its entities in declared order. -/
theorem names_foldl_entitywise :
    (m.entitywise.foldl Validator.accept (.ofTables t)).model.names = m.names := by
  have hstep : ∀ (es : List (String × Entity)) (v : Validator),
      ((es.flatMap fun e => e.2.events e.1).foldl .accept v).model.names =
        (es.map Prod.fst).foldl (fun ns n => DependencyGraph.addName n ns) v.model.names := by
    intro es
    induction es with
    | nil => exact fun _ => rfl
    | cons e es ih =>
      intro v
      rw [List.flatMap_cons, List.foldl_append, ih, Validator.names_foldl_entity]
      rfl
  have hnodup : ([] ++ m.names).Nodup := m.entities.nodup_keys
  rw [entitywise, hstep]
  exact DependencyGraph.foldl_addName_of_nodup hnodup

/-- Taken entity by entity, the events of a model make its entities, normalized. -/
theorem model_foldl_entitywise :
    (m.entitywise.foldl Validator.accept (.ofTables t)).model = t.normalizedModel m := by
  refine congrArg NormalizedModel.mk (OrderedMap.ext_find? ?_ fun n hn => ?_)
  · rw [OrderedMap.keys_mapValues]
    exact m.names_foldl_entitywise t
  · obtain ⟨e, he⟩ := m.entities.exists_find?_of_mem
      (show n ∈ m.names from m.names_foldl_entitywise t ▸ hn)
    have hown : (m.entitywise.filter fun ev => ev.entity? = some n) = e.events n :=
      filter_flatMap_entity m.entities.nodup_keys (fun e _ => e.2.entity?_of_mem_events)
        (m.entities.mem_entries.2 he)
    have hfind := (Validator.ofTables t).find?_foldl m.entitywise n
    rw [hown, ValidationTables.foldl_events] at hfind
    rw [OrderedMap.find?_mapValues, he]
    exact hfind

/-- Only references stand for dependencies, which are declared in the same order in both ways. -/
theorem dependencies_entitywise :
    m.entitywise.flatMap Event.dependencies = m.events.flatMap Event.dependencies := by
  have hentities : m.entityEvents.flatMap Event.dependencies = [] :=
    List.flatMap_eq_nil_iff.2 fun ev hev => by
      obtain ⟨n, e, -, rfl⟩ := mem_entityEvents.1 hev
      rfl
  have hattributes : ∀ (n : String) (e : Entity),
      (e.attributeEvents n).flatMap Event.dependencies = [] := fun n e =>
    List.flatMap_eq_nil_iff.2 fun ev hev => by
      obtain ⟨a, -, rfl⟩ := List.mem_map.1 hev
      rfl
  have hpass : m.attributeEvents.flatMap Event.dependencies = [] := by
    simp only [attributeEvents, List.flatMap_assoc, hattributes]
    exact List.flatMap_eq_nil_iff.2 fun _ _ => rfl
  have hown : ∀ (n : String) (e : Entity), (e.events n).flatMap Event.dependencies =
      (e.referenceEvents n).flatMap Event.dependencies := by
    intro n e
    rw [Entity.events, List.flatMap_cons, List.flatMap_append, hattributes]
    rfl
  rw [events_eq_passes, List.flatMap_append, List.flatMap_append, List.flatMap_append, hentities,
    hpass, entitywise, List.flatMap_assoc]
  simp only [hown, List.nil_append]
  rw [referenceEvents, List.flatMap_assoc]
  exact (List.append_nil _).symm

/-- Taken entity by entity, the events of a model make the same graph as in passes. -/
theorem graph_foldl_entitywise :
    (m.entitywise.foldl Validator.accept (.ofTables t)).graph = (m.validated t).graph := by
  have hlinked := (Validator.Linked.ofTables t).foldl_accept m.entitywise
  have hnodes : (m.entitywise.foldl Validator.accept (.ofTables t)).graph.nodes =
      (m.validated t).graph.nodes := by
    rw [hlinked.nodes_eq, names_foldl_entitywise, nodes_validated]
  have hedges : (m.entitywise.foldl Validator.accept (.ofTables t)).graph.edges =
      (m.validated t).graph.edges := by
    rw [Validator.edges_foldl, dependencies_entitywise, edges_validated]
    rfl
  exact congrArg₂ DependencyGraph.mk hnodes hedges

/-- The rows about the entities of a named model, each alone, are those of its parse. -/
theorem Named.mem_rows_entitywise {m : Model} (h : m.Named) {row : ErrorRow} :
    row ∈ (m.entities.entries.flatMap fun e => e.2.rows t e.1) ↔
      row ∈ m.elementRows t ++ (t.normalizedModel m).keyRows m.names := by
  have hkey : ∀ n e, m.find? n = some e →
      (row ∈ (if (t.normalized e).hasKey then [] else [ErrorRow.ofObject n Validator.noKeyError]) ↔
        (t.normalized e).hasKey = false ∧
          row = ⟨n, .wholeObject, "-", Validator.noKeyError⟩) := by
    intro n e he
    rw [ErrorRow.ofObject, h.fileName he]
    cases (t.normalized e).hasKey <;> simp [ErrorRecord.wholeEntity]
  have helements : row ∈ m.elementRows t ↔
      ∃ ev, (∃ n e, m.find? n = some e ∧ ev ∈ e.events n) ∧ row ∈ ev.findings t := by
    simp only [elementRows, List.mem_flatMap, mem_passes]
  simp only [List.mem_append, h.mem_keyRows, helements, List.mem_flatMap, Entity.rows, Prod.exists,
    OrderedMap.mem_entries]
  constructor
  · rintro ⟨n, e, he, ⟨ev, hev, hrow⟩ | hrow⟩
    · exact .inl ⟨ev, ⟨n, e, he, hev⟩, hrow⟩
    · exact .inr ⟨n, e, he, (hkey n e he).1 hrow⟩
  · rintro (⟨ev, ⟨n, e, he, hev⟩, hrow⟩ | ⟨n, e, he, hrow⟩)
    · exact ⟨n, e, he, .inl ⟨ev, hev, hrow⟩⟩
    · exact ⟨n, e, he, .inr ((hkey n e he).2 hrow)⟩

end Model

/-! ## Main statement -/

/-- Validating the entities of a model without empty names one by one, each alone, succeeds and
gives each entity as the parse of the model has it. In the end the model and the graph are those of
the parse, and the errors have the same rows. -/
theorem normalizeEach_eq_parse (t : ValidationTables) {m : Model} (h : m.Named) :
    ∃ v w results, m.parseWith (Validator.ofTables t) = (v, none) ∧
      (Validator.ofTables t).normalizeEach m.entities.entries = (results, w) ∧
      List.Forall₂ (fun declared result =>
        ∃ e, v.model.find? declared.1 = some e ∧ result = .ok e) m.entities.entries results ∧
      w.model = v.model ∧ w.graph = v.graph ∧ w.errors.rows.Perm v.errors.rows := by
  have hnamed : ∀ e ∈ m.entities.entries, ∀ ev ∈ e.2.events e.1, ev.nameError? = none :=
    fun e he => h.nameError?_of_mem_entity (m.entities.mem_entries.1 he)
  refine ⟨m.validated t, _, _, h.parseWith_validator t,
    (Validator.ofTables t).normalizeEach_eq hnamed, ?_, ?_, ?_, ?_⟩
  · refine List.forall₂_map_right_iff.2 (List.forall₂_same.2 fun e he => ?_)
    have hfind : m.entities.find? e.1 = some e.2 := m.entities.mem_entries.1 he
    refine ⟨t.normalized e.2, ?_, rfl⟩
    rw [Model.model_validated]
    simp [NormalizedModel.find?, ValidationTables.normalizedModel, hfind]
  · rw [Model.model_validated]
    exact m.model_foldl_entitywise t
  · exact m.graph_foldl_entitywise t
  · refine (List.perm_ext_iff_of_nodup ?_ ?_).2 fun row => ?_
    · exact (ErrorRecord.WellFiled.empty.addAll _).nodup_rows
    · exact (m.wellFiled_validated t).nodup_rows
    · rw [Model.errors_validated, Validator.errors_withErrors]
      exact ErrorRecord.mem_rows_addAll.trans
        ((or_congr_left (h.mem_rows_entitywise t)).trans ErrorRecord.mem_rows_addAll.symm)

/-- A person and a pet that refer to each other, validated one by one: the pet is validated when its
owner is there, and the person before its pet is. -/
theorem normalizeEach_eq_parse_of_pet :
    let person := Entity.empty.withReference "pet" (.shorthand (.text "Pet"))
    let pet := Entity.empty.withReference "owner" (.shorthand (.text "Person"))
    let m := (Model.empty.insert "Person" person).insert "Pet" pet
    m.Named ∧ ∃ v w e e', m.parseWith (Validator.ofTables .builtIn) = (v, none) ∧
      (Validator.ofTables .builtIn).normalizeEach [("Person", person), ("Pet", pet)] =
        ([.ok e, .ok e'], w) ∧
      v.model.find? "Person" = some e ∧ v.model.find? "Pet" = some e' ∧ w.model = v.model ∧
      w.graph = v.graph ∧ w.errors.rows.Perm v.errors.rows := by
  intro person pet m
  have hnamed : m.Named := by decide
  obtain ⟨v, w, results, hparse, heach, hresults, hmodel, hgraph, hrows⟩ :=
    normalizeEach_eq_parse .builtIn hnamed
  have hentries : m.entities.entries = [("Person", person), ("Pet", pet)] := rfl
  rw [hentries] at heach hresults
  obtain _ | @⟨_, _, _, _, ⟨e, he, rfl⟩, hrest⟩ := hresults
  obtain _ | @⟨_, _, _, _, ⟨e', he', rfl⟩, ⟨⟩⟩ := hrest
  exact ⟨hnamed, v, w, e, e', hparse, heach, he, he', hmodel, hgraph, hrows⟩

end EntityModel
