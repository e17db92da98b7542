import EntityModel.Participant
import EntityModel.Proofs.Generator.Builder
import EntityModel.Proofs.Parse.Delivery
import EntityModel.Proofs.Parse.History
import EntityModel.Proofs.Schema.Objects
import EntityModel.Proofs.Validator.Operations

/-!
# Parsing a model again

A second parse of the same model changes nothing. The declaration of an entity starts it anew, and
its elements then make of it what they made before; so each entity, object and vertex is the same
again, at its place. Rows, dependencies and edges are there already. Connections of objects that the
model does not declare are not cleared, and marked again with the same name. What the elements do
depends on the entities of then, which are all there in both parses (`Delivery.awaits`).
-/

namespace EntityModel

namespace Delivery

variable (d : Delivery)

/-! ## Validators -/

section
variable (v : Validator)

/-- The declarations add the entities. -/
theorem names_declarations :
    (d.declarations.foldl .accept v).model.names =
      d.names.foldl (fun ns n => DependencyGraph.addName n ns) v.model.names := by
  have hregisters : d.declarations.flatMap Event.registers = d.names := by
    rw [declarations, List.flatMap_map]
    exact List.map_eq_flatMap.symm
  rw [Validator.names_foldl, hregisters]

/-- An entity that has just been declared is without references. -/
theorem reference?_declarations {n : String} (hn : n ∈ d.names) (r : String) :
    (d.declarations.foldl .accept v).model.reference? n r = none := by
  unfold declarations names at *
  generalize d.entities = es at hn ⊢
  induction es using List.reverseRecOn with
  | nil => cases hn
  | append_singleton es e ih =>
    rw [List.map_append, List.map_singleton, List.foldl_concat, NormalizedModel.reference?,
      Validator.find?_accept]
    by_cases hlast : e.1 = n
    · simp [Event.entity?, hlast, ValidationTables.entityAfter]
    · have hrest : n ∈ es.map Prod.fst := by
        rw [List.map_append, List.mem_append] at hn
        exact hn.resolve_right fun h => hlast (by simpa [eq_comm] using h)
      have hother : ¬ (Event.declareEntity e.1 e.2).entity? = some n := fun h =>
        hlast (Option.some.inj h)
      rw [if_neg hother]
      exact ih hrest

/-- After the declarations, the elements are awaited. -/
theorem awaits : (d.declarations.foldl .accept v).Awaits d.elements where
  elements ev hev := by
    refine (d.elementOf ev hev).mono fun n hn => ?_
    rw [names_declarations, DependencyGraph.mem_foldl_addName]
    exact .inr hn
  new ev hev n r hreference := by
    refine d.reference?_declarations v ?_ r
    exact (d.elementOf ev hev).mem_of_entity? (Event.entity?_of_reference? hreference)
  distinct := d.distinct

/-- The end files the rows about entities without a key, and there is nothing to check at it. -/
theorem foldl_ending :
    d.ending.foldl .accept v = v.withErrors
        (v.errors.addAll (if d.ended then v.model.keyRows v.model.names else [])) ∧
      d.ending.foldl (fun v ev => (v.acceptChecked ev).2) v = d.ending.foldl .accept v := by
  unfold ending
  cases d.ended with
  | false => exact ⟨rfl, rfl⟩
  | true => exact ⟨v.checkEntities_eq, rfl⟩

/-- All events add the entities that are declared. -/
theorem names_events :
    (d.events.foldl .accept v).model.names =
      d.names.foldl (fun ns n => DependencyGraph.addName n ns) v.model.names := by
  rw [events, List.foldl_append, List.foldl_append, (d.foldl_ending _).1,
    Validator.model_withErrors, (d.awaits v).names_foldl, names_declarations]

/-- The rows that the events file, where the elements have checks of their own. -/
def rows (t : ValidationTables) (m : NormalizedModel) (checks : Event → List ErrorRow) :
    List ErrorRow :=
  d.declarations.flatMap (Event.findings t) ++
    (d.elements.flatMap fun ev => ev.findings t ++ checks ev) ++
    if d.ended then m.keyRows m.names else []

/-- The declarations file what they find by themselves. -/
theorem errors_declarations :
    (d.declarations.foldl .accept v).errors =
      v.errors.addAll (d.declarations.flatMap (Event.findings v.tables)) := by
  refine v.errors_foldl_of_announced fun ev hev => ?_
  obtain ⟨e, -, rfl⟩ := List.mem_map.1 hev
  trivial

/-- All events make of the model what the declarations and the elements make of it. -/
theorem foldl_events :
    let w := d.elements.foldl .accept (d.declarations.foldl .accept v)
    d.events.foldl .accept v = w.withErrors
      (w.errors.addAll (if d.ended then w.model.keyRows w.model.names else [])) := by
  rw [events, List.foldl_append, List.foldl_append]
  exact (d.foldl_ending _).1

/-- Without checks, the events file their rows. -/
theorem errors_events :
    (d.events.foldl .accept v).errors = v.errors.addAll
      (d.rows v.tables (d.events.foldl .accept v).model fun _ => []) := by
  have helements := Validator.errors_foldl_of_announced (d.declarations.foldl .accept v)
    fun ev hev => ((d.awaits v).elements ev hev).announced
  rw [foldl_events, Validator.errors_withErrors, Validator.model_withErrors, helements,
    errors_declarations, Validator.tables_foldl, rows, ErrorRecord.addAll_append,
    ErrorRecord.addAll_append]
  simp only [List.append_nil]

/-- With checks, the events do the same, and the elements file rows about their targets. -/
theorem foldl_acceptChecked_events :
    let w := d.events.foldl .accept v
    d.events.foldl (fun v ev => (v.acceptChecked ev).2) v = w.withErrors (v.errors.addAll
      (d.rows v.tables w.model (Event.targetRows w.model.names))) := by
  have hdeclarations : d.declarations.foldl (fun v ev => (v.acceptChecked ev).2) v =
      d.declarations.foldl .accept v := by
    refine List.foldl_ext _ _ _ fun w ev hev => ?_
    obtain ⟨e, -, rfl⟩ := List.mem_map.1 hev
    rfl
  have hnames := (d.awaits v).names_foldl
  rw [foldl_events, events, List.foldl_append, List.foldl_append, (d.foldl_ending _).2,
    (d.foldl_ending _).1, hdeclarations, (d.awaits v).foldl_acceptChecked, errors_declarations,
    Validator.tables_foldl]
  simp only [Validator.withErrors_withErrors, Validator.model_withErrors,
    Validator.errors_withErrors, rows, hnames, ErrorRecord.addAll_append]

/-! ### Again -/

/-- The events make of the model again what they made of it. -/
theorem model_again :
    (d.events.foldl .accept (d.events.foldl .accept v)).model =
      (d.events.foldl .accept v).model := by
  refine congrArg NormalizedModel.mk (OrderedMap.ext_find? ?_ fun n _ => ?_)
  · refine (d.names_events _).trans ?_
    rw [names_events]
    exact (DependencyGraph.foldl_addName_foldl ..).trans (d.names_events v).symm
  · have hagain := (d.events.foldl .accept v).find?_foldl d.events n
    have hfirst := v.find?_foldl d.events n
    have hafter : ∀ o o' n e, v.tables.entityAfter o (.declareEntity n e) =
        v.tables.entityAfter o' (.declareEntity n e) := fun _ _ _ _ => rfl
    rw [Validator.tables_foldl, hfirst, d.foldl_about hafter, ← hfirst] at hagain
    exact hagain

/-- In a linked validator, the events make of all but the errors again what they made. -/
theorem foldl_accept_again (h : v.Linked) :
    ∃ r, d.events.foldl .accept (d.events.foldl .accept v) =
      (d.events.foldl .accept v).withErrors r := by
  have hlinked := h.foldl_accept d.events
  have hmodel := d.model_again v
  have hnodes : (d.events.foldl .accept (d.events.foldl .accept v)).graph.nodes =
      (d.events.foldl .accept v).graph.nodes := by
    rw [(hlinked.foldl_accept d.events).nodes_eq, hmodel, hlinked.nodes_eq]
  have hedges : (d.events.foldl .accept (d.events.foldl .accept v)).graph.edges =
      (d.events.foldl .accept v).graph.edges := by
    rw [Validator.edges_foldl, Validator.edges_foldl, DependencyGraph.foldl_recordEdge_foldl]
  have htables := (d.events.foldl .accept v).tables_foldl d.events
  generalize d.events.foldl .accept (d.events.foldl .accept v) = w' at *
  generalize d.events.foldl .accept v = w at *
  refine ⟨w'.errors, ?_⟩
  obtain ⟨tables', model', errors', nodes', edges'⟩ := w'
  obtain ⟨tables, model, errors, nodes, edges⟩ := w
  subst hmodel hnodes hedges htables
  rfl

/-- If the events file rows that depend on the tables and on the model in the end, they change
nothing where they came before: the rows are there. -/
theorem foldl_again {step : Validator → Event → Validator}
    (filed : ValidationTables → NormalizedModel → List ErrorRow)
    (hstep : ∀ v, d.events.foldl step v = (d.events.foldl .accept v).withErrors
      (v.errors.addAll (filed v.tables (d.events.foldl .accept v).model))) {v : Validator}
    (h : v.Linked) :
    d.events.foldl step (d.events.foldl step v) = d.events.foldl step v := by
  obtain ⟨r, hr⟩ := d.foldl_accept_again v h
  have htables := v.tables_foldl d.events
  have hagain := hstep (d.events.foldl step v)
  rw [hstep v] at hagain ⊢
  generalize d.events.foldl Validator.accept v = w at *
  obtain ⟨r', hr'⟩ := w.foldl_accept_withErrors (v.errors.addAll (filed v.tables w.model)) d.events
  rw [hagain, hr', hr]
  simp only [Validator.withErrors_withErrors, Validator.model_withErrors,
    Validator.errors_withErrors, Validator.tables_withErrors, htables, ErrorRecord.addAll_addAll]

/-- A validator that has taken the events does not change when it takes them again. -/
theorem validator_again {v : Validator} (h : v.Linked) :
    d.events.foldl .accept (d.events.foldl .accept v) = d.events.foldl .accept v := by
  refine d.foldl_again (fun t m => d.rows t m fun _ => []) (fun v => ?_) h
  rw [← errors_events, Validator.withErrors_self]

/-- Neither does one that checks targets. -/
theorem checked_again {v : Validator} (h : v.Linked) :
    d.events.foldl (fun v ev => (v.acceptChecked ev).2)
        (d.events.foldl (fun v ev => (v.acceptChecked ev).2) v) =
      d.events.foldl (fun v ev => (v.acceptChecked ev).2) v :=
  d.foldl_again (fun t m => d.rows t m (Event.targetRows m.names)) d.foldl_acceptChecked_events h

end

/-! ## Schemas -/

section
variable (b : Schema.Builder)

/-- The fields that the elements stand for in the object of an entity. -/
def fields (t : ValidationTables) (ns : String) (names : List String) (n : String) :
    List Schema.Field :=
  (d.elements.filter fun ev => ev.entity? = some n).filterMap fun ev =>
    ev.field? t ns (ev.known? names)

/-- The elements stand for no field of an entity that is not declared. -/
theorem fields_eq_nil {n : String} (hn : n ∉ d.names) (t : ValidationTables) (ns : String)
    (names : List String) : d.fields t ns names n = [] := by
  have hnone : (d.elements.filter fun ev => ev.entity? = some n) = [] :=
    List.filter_eq_nil_iff.2 fun ev hev h =>
      hn ((d.elementOf ev hev).mem_of_entity? (by simpa using h))
  rw [fields, hnone, List.filterMap_nil]

/-- The objects that the declarations start. -/
def started : List (String × Schema.Object) :=
  d.entities.map fun e => (e.1, .ofEntity e.1 (e.2.description.getD ""))

/-- The entities of the builder after all events. -/
theorem names_schema :
    (d.events.foldl .accept b).validator.model.names =
      d.names.foldl (fun ns n => DependencyGraph.addName n ns) b.validator.model.names := by
  rw [Schema.Builder.model_foldl, names_events]

/-- What the events make of an object: its declaration starts it, and the elements extend it. -/
theorem find?_objects (n : String) :
    let names := (d.events.foldl .accept b).validator.model.names
    (d.events.foldl .accept b).objects.find? n =
      ((OrderedMap.lookupIn n d.started.reverse).or (b.objects.find? n)).map fun o => o.extend n
        (d.fields b.validator.tables b.ns names n)
        (d.elements.any fun ev => (ev.known? names).any fun r => r.pages b.ns n) := by
  intro names
  have hending : ∀ b : Schema.Builder, (d.ending.foldl .accept b).objects = b.objects := by
    intro b
    unfold ending
    cases d.ended <;> rfl
  have hmodel := b.model_foldl d.declarations
  have hnames : (d.declarations.foldl .accept b).validator.model.names = names := by
    rw [hmodel, names_declarations, ← names_schema]
  have helements := (d.declarations.foldl .accept b).find?_foldl_elements hnames
    ((d.awaits b.validator).of_model_eq hmodel) n
  obtain ⟨hns, htables⟩ := b.foldl_options d.declarations
  have hstarted : (d.declarations.foldl .accept b).objects = b.objects.insertAll d.started :=
    Schema.Builder.objects_foldl_entities d.entities b
  rw [hns, htables, hstarted, OrderedMap.find?_insertAll] at helements
  rw [events, List.foldl_append, List.foldl_append, hending]
  exact helements

/-- The events make of the objects again what they made of them. -/
theorem objects_again :
    (d.events.foldl .accept (d.events.foldl .accept b)).objects =
      (d.events.foldl .accept b).objects := by
  have hnames : (d.events.foldl .accept (d.events.foldl .accept b)).validator.model.names =
      (d.events.foldl .accept b).validator.model.names := by
    rw [names_schema, names_schema, DependencyGraph.foldl_addName_foldl]
  obtain ⟨hns, htables⟩ := b.foldl_options d.events
  refine OrderedMap.ext_find? ?_ fun n _ => ?_
  · rw [Schema.Builder.keys_foldl, Schema.Builder.keys_foldl,
      DependencyGraph.foldl_addName_foldl]
  · have hagain := d.find?_objects (d.events.foldl .accept b) n
    have hfirst := d.find?_objects b n
    simp only [hnames, hns, htables] at hagain
    rw [hagain, hfirst]
    cases hstarted : OrderedMap.lookupIn n d.started.reverse with
    | some o => rfl
    | none =>
      -- an object that is not started anew gets no fields, and the same connection twice
      have hn : n ∉ d.names := by
        intro hn
        have hkey : n ∈ d.started.reverse.map Prod.fst := by
          simpa [started, names] using hn
        rw [← OrderedMap.isSome_lookupIn, hstarted] at hkey
        cases hkey
      rw [d.fields_eq_nil hn, Option.none_or, Option.map_map]
      refine congrFun (congrArg _ (funext fun o => ?_)) _
      rw [Function.comp_apply, Schema.Object.extend_extend, Bool.or_self, List.append_nil]

/-- A builder of a schema that has taken the events does not change when it takes them again. -/
theorem schema_again (h : b.validator.Linked) :
    d.events.foldl .accept (d.events.foldl .accept b) = d.events.foldl .accept b := by
  have hvalidator : (d.events.foldl .accept (d.events.foldl .accept b)).validator =
      (d.events.foldl .accept b).validator := by
    rw [Validator.inner_foldl Schema.Builder.validator_accept,
      Validator.inner_foldl Schema.Builder.validator_accept, d.checked_again h]
  rw [Schema.Builder.foldl_eq, hvalidator, objects_again]

end

/-! ## Generator files -/

section
variable (b : Generator.Builder)

/-- The entities of the builder after all events. -/
theorem names_generator :
    (d.events.foldl .accept b).validator.model.names =
      d.names.foldl (fun ns n => DependencyGraph.addName n ns) b.validator.model.names := by
  rw [Generator.Builder.model_foldl, names_events]

/-- The events make of the vertices again what they made of them. -/
theorem vertices_again :
    (d.events.foldl .accept (d.events.foldl .accept b)).vertices =
      (d.events.foldl .accept b).vertices := by
  have htables : (d.events.foldl .accept b).validator.tables = b.validator.tables := by
    rw [Validator.inner_foldl Generator.Builder.validator_accept, foldl_acceptChecked_events,
      Validator.tables_withErrors, Validator.tables_foldl]
  refine OrderedMap.ext_find? ?_ fun n _ => ?_
  · rw [Generator.Builder.keys_vertices_foldl, Generator.Builder.keys_vertices_foldl,
      DependencyGraph.foldl_addName_foldl]
  · have hagain := (d.events.foldl .accept b).find?_vertices_foldl d.events n
    have hfirst := b.find?_vertices_foldl d.events n
    have hafter : ∀ o o' n e, Generator.vertexAfter b.validator.tables o (.declareEntity n e) =
        Generator.vertexAfter b.validator.tables o' (.declareEntity n e) := fun _ _ _ _ => rfl
    rw [htables, hfirst, d.foldl_about hafter, ← hfirst] at hagain
    exact hagain

/-- The events insert the edges of those references whose targets are entities. -/
theorem edges_events :
    let names := (d.events.foldl .accept b).validator.model.names
    (d.events.foldl .accept b).edges = b.edges.insertAll
      (d.elements.filterMap fun ev => ev.edge? b.ns (ev.known? names)) := by
  intro names
  have hending : ∀ b : Generator.Builder, (d.ending.foldl .accept b).edges = b.edges := by
    intro b
    unfold ending
    cases d.ended <;> rfl
  have hmodel := b.model_foldl d.declarations
  have hnames : (d.declarations.foldl .accept b).validator.model.names = names := by
    rw [hmodel, names_declarations, ← names_generator]
  have helements := (d.declarations.foldl .accept b).edges_foldl_elements hnames
    ((d.awaits b.validator).of_model_eq hmodel)
  have hns : (d.declarations.foldl .accept b).ns = b.ns := by
    rw [Generator.Builder.foldl_eq]
  have hdeclared : (d.declarations.foldl .accept b).edges = b.edges :=
    b.edges_foldl_entities d.entities
  rw [hns, hdeclared] at helements
  rw [events, List.foldl_append, List.foldl_append, hending]
  exact helements

/-- The events insert again the edges that they inserted. -/
theorem edges_again :
    (d.events.foldl .accept (d.events.foldl .accept b)).edges =
      (d.events.foldl .accept b).edges := by
  have hnames : (d.events.foldl .accept (d.events.foldl .accept b)).validator.model.names =
      (d.events.foldl .accept b).validator.model.names := by
    rw [names_generator, names_generator, DependencyGraph.foldl_addName_foldl]
  have hns : (d.events.foldl .accept b).ns = b.ns := by
    rw [Generator.Builder.foldl_eq]
  have hagain := d.edges_events (d.events.foldl .accept b)
  simp only [hnames, hns] at hagain
  rw [hagain, d.edges_events b, OrderedMap.insertAll_insertAll]

/-- A builder of a generator file that has taken the events does not change when it takes them
again. -/
theorem generator_again (h : b.validator.Linked) :
    d.events.foldl .accept (d.events.foldl .accept b) = d.events.foldl .accept b := by
  have hvalidator : (d.events.foldl .accept (d.events.foldl .accept b)).validator =
      (d.events.foldl .accept b).validator := by
    rw [Validator.inner_foldl Generator.Builder.validator_accept,
      Validator.inner_foldl Generator.Builder.validator_accept, d.checked_again h]
  rw [Generator.Builder.foldl_eq, hvalidator, vertices_again, edges_again]

end

end Delivery

/-! ## All consumers -/

namespace Participant

/-- A consumer before any parse, as its tables and its options make it. -/
inductive Fresh : Participant → Prop
  | validator (t : ValidationTables) : Fresh (.validator (.ofTables t))
  | schema {t : ValidationTables} {options : SchemaOptions} {b : Schema.Builder} :
      Schema.Builder.ofOptions t options = .ok b → Fresh (.schema b)
  | generator (t : ValidationTables) (options : GeneratorOptions) :
      Fresh (.generator (.ofOptions t options))

/-- What an event about a named element makes of a consumer. -/
def accept : Participant → Event → Participant
  | .validator v, ev => .validator (v.accept ev)
  | .schema b, ev => .schema (b.accept ev)
  | .generator b, ev => .generator (b.accept ev)

/-- The validator that a consumer is, or has inside. -/
def inside : Participant → Validator
  | .validator v => v
  | .schema b => b.validator
  | .generator b => b.validator

/-- A consumer takes every event about a named element. -/
theorem handle_eq_ok (p : Participant) (ev : Event) (h : ev.nameError? = none) :
    Consumer.handle p ev = .ok (p.accept ev) := by
  cases p with
  | validator v => exact congrArg (Except.map _) (v.handle_eq_ok ev h)
  | schema b => exact congrArg (Except.map _) (b.handle_eq_ok ev h)
  | generator b => exact congrArg (Except.map _) (b.handle_eq_ok ev h)

/-- The validator of a fresh consumer is linked. -/
theorem Fresh.linked {p : Participant} (h : p.Fresh) : p.inside.Linked := by
  cases h with
  | validator t => exact .ofTables t
  | schema hb =>
    rw [inside, (Schema.Builder.of_ofOptions hb).1]
    exact .ofTables _
  | generator t options => exact .ofTables t

/-- Events keep the validator of a consumer linked. -/
theorem linked_foldl {p : Participant} (h : p.inside.Linked) (evs : List Event) :
    (evs.foldl accept p).inside.Linked := by
  induction evs generalizing p with
  | nil => exact h
  | cons ev evs ih =>
    refine ih ?_
    cases p with
    | validator v => exact h.accept ev
    | schema b =>
      obtain ⟨rows, hrows⟩ := b.validator.acceptChecked_snd ev
      rw [accept, inside, Schema.Builder.validator_accept, hrows]
      exact (h.accept ev).withErrors _
    | generator b =>
      obtain ⟨rows, hrows⟩ := b.validator.acceptChecked_snd ev
      rw [accept, inside, Generator.Builder.validator_accept, hrows]
      exact (h.accept ev).withErrors _

/-- A consumer that has taken the events of a delivery does not change when it takes them again. -/
theorem foldl_again {p : Participant} (h : p.inside.Linked) (d : Delivery) :
    d.events.foldl accept (d.events.foldl accept p) = d.events.foldl accept p := by
  cases p with
  | validator v =>
    have hv : v.Linked := h
    have hrun : ∀ v, d.events.foldl accept (.validator v) =
        .validator (d.events.foldl .accept v) := fun v =>
      List.foldl_hom Participant.validator fun _ _ => rfl
    rw [hrun, hrun, d.validator_again hv]
  | schema b =>
    have hb : b.validator.Linked := h
    have hrun : ∀ b, d.events.foldl accept (.schema b) = .schema (d.events.foldl .accept b) :=
      fun b => List.foldl_hom Participant.schema fun _ _ => rfl
    rw [hrun, hrun, d.schema_again b hb]
  | generator b =>
    have hb : b.validator.Linked := h
    have hrun : ∀ b, d.events.foldl accept (.generator b) =
        .generator (d.events.foldl .accept b) := fun b =>
      List.foldl_hom Participant.generator fun _ _ => rfl
    rw [hrun, hrun, d.generator_again b hb]

end Participant

/-! ## Main statement -/

/-- Whatever a consumer has parsed before, also where it was stopped, parsing a model a second time
right after the first gives the same result and leaves the consumer exactly as the first time did.
-/
theorem parse_idempotent {start : Participant} (h : start.Fresh) (ms : List Model) (m : Model) :
    let c := ms.foldl (fun c m => (m.parseWith c).1) start
    m.parseWith (m.parseWith c).1 = m.parseWith c := by
  intro c
  have hfirst : m.delivered <+: m.events := List.takeWhile_prefix _
  obtain ⟨d, hd⟩ := Model.exists_delivery hfirst
  have hreach : c = (ms.flatMap Model.delivered).foldl Participant.accept start :=
    foldl_parseWith Participant.handle_eq_ok ms start
  have hlinked : c.inside.Linked := hreach ▸ Participant.linked_foldl h.linked _
  have hparse : ∀ c : Participant, m.parseWith c =
      (d.events.foldl Participant.accept c, m.events.findSome? Event.nameError?) := fun c =>
    hd ▸ feed_eq_takeWhile Participant.handle_eq_ok m.events c
  rw [hparse c, hparse, Participant.foldl_again hlinked d]

/-- A schema has a person with a page of pets, and then the pet is declared again, with an attribute
without a name after its key. That stops the parse, which has taken the connection from the pet; a
second such parse is stopped there as well and finds nothing to change. -/
theorem parse_idempotent_of_connection :
    let key := AttributeDecl.full (AttributeConfig.empty.withFlag "in_key_hash" (.bool true))
    let keyed := Entity.empty.withAttribute "id" key
    let paged : Annotation := .ofParts none (some .connection)
    let pets := ReferenceConfig.withAnnotation (.ofTarget (.text "Pet")) "graphql" paged
    let first := (Model.empty.insert "Person" (keyed.withReference "pets" (.full pets))).insert
      "Pet" keyed
    let m := Model.empty.insert "Pet" (keyed.withAttribute "" (.full .empty))
    let b : Schema.Builder := ⟨.ofTables .builtIn, "", "graphql", "__id_unique", .empty⟩
    let start : Participant := .schema b
    let c := (first.parseWith start).1
    start.Fresh ∧ m.parseWith (m.parseWith c).1 = m.parseWith c ∧
      (m.parseWith c).2 = some (.missingAttributeName "Pet") ∧ (m.parseWith c).1 ≠ c := by
  intro key keyed paged pets first m b start c
  have hb : Schema.Builder.ofOptions .builtIn
      { SchemaOptions.builtIn with template := some "" } = .ok b := rfl
  have hfresh : start.Fresh := .schema hb
  exact ⟨hfresh, parse_idempotent hfresh [first] m, by decide +kernel, by decide +kernel⟩

end EntityModel
