import EntityModel.Proofs.Parse.History
import EntityModel.Proofs.Schema.Builder
import EntityModel.Proofs.Validator.Operations

/-!
# What a schema is rendered with

The entities are kept by the validator, and the objects beside it. Out of turn, an entity may come
without an object: one whose elements are handled before it is declared. But this is an error, and
errors stay, so in a valid model every entity has its object (`Builder.Covered`), however the
builder was called. Hence the order of the entities is one of all objects (`context_complete`).
-/

namespace EntityModel

/-- The entity of an event that files nothing is declared by it or was there before. -/
theorem Validator.declared_of_registers {v : Validator} {ev : Event} (h : v.findings ev = [])
    {n : String} (hn : n ∈ ev.registers) : n ∈ ev.declares ∨ n ∈ v.model.names := by
  have hthere : ∀ entity, v.missingRows entity = [] → entity ∈ v.model.names := by
    intro entity hrows
    by_contra hentity
    have hcontains : ¬ v.model.contains entity = true := fun h' =>
      hentity (v.model.entities.contains_eq_true.1 h')
    simp [missingRows, hcontains] at hrows
  obtain ⟨-, hmissing⟩ := List.append_eq_nil_iff.1 h
  cases ev with
  | declareEntity name e => exact .inl hn
  | declareAttribute entity name c =>
    rw [List.mem_singleton.1 hn]
    exact .inr (hthere entity hmissing)
  | declareReference entity name c =>
    cases hc : c.complete? with
    | none => simp [Event.registers, hc] at hn
    | some r =>
      obtain rfl : n = entity := by simpa [Event.registers, hc] using hn
      exact .inr (hthere n (by simpa [hc] using hmissing))
  | finish => cases hn

namespace Schema.Builder

/-! ## Entities and objects -/

/-- The objects are those of entities, and in a valid model of all entities. -/
structure Covered (b : Builder) : Prop where
  linked : b.validator.Linked
  wellFiled : b.validator.errors.WellFiled
  wellNamed : b.WellNamed
  announced : ∀ n ∈ b.objects.keys, n ∈ b.validator.model.names
  built : b.validator.isValid = true → ∀ n ∈ b.validator.model.names, n ∈ b.objects.keys

/-- A call of a builder is an event that it accepts, or one that changes nothing. -/
theorem call_eq (b : Builder) (ev : Event) :
    Consumer.call b ev = if ev.nameError? = none then b.accept ev else b := by
  cases hname : ev.nameError? with
  | none => simp [Consumer.call, handle_eq_ok b ev hname]
  | some f => simp [Consumer.call, Consumer.handle, hname]

/-- Where nothing wrong was found after an event, nothing was found before it, or by it. -/
theorem findings_of_valid {b : Builder} (h : b.validator.errors.WellFiled) {ev : Event}
    (hvalid : (b.accept ev).validator.isValid = true) :
    b.validator.isValid = true ∧ b.validator.findings ev = [] := by
  obtain ⟨rows, hrows⟩ := b.validator_accept_eq ev
  rw [hrows] at hvalid
  obtain ⟨hnone, hbefore⟩ := h.isEmpty_addAll.1 hvalid
  exact ⟨hbefore, (List.append_eq_nil_iff.1 hnone).1⟩

namespace Covered

variable {b : Builder}

/-- A fresh builder has neither entities nor objects. -/
theorem of_ofOptions {t : ValidationTables} {options : SchemaOptions}
    (h : ofOptions t options = .ok b) : b.Covered := by
  obtain ⟨hvalidator, hobjects⟩ := Builder.of_ofOptions h
  constructor
  · exact hvalidator ▸ .ofTables t
  · rw [hvalidator]
    exact .empty
  · intro n o ho
    simp [hobjects] at ho
  · simp [hobjects]
  · intro _ n hn
    rw [hvalidator] at hn
    cases hn

/-- An event keeps objects and entities together: an entity that it brings without an object was
missing, which it files. -/
theorem accept (h : b.Covered) (ev : Event) : (b.accept ev).Covered := by
  have hkeys : ∀ n, n ∈ (b.accept ev).objects.keys ↔ n ∈ b.objects.keys ∨ n ∈ ev.declares := by
    intro n
    rw [keys_accept, DependencyGraph.mem_foldl_addName]
  have hnames : ∀ n, n ∈ (b.accept ev).validator.model.names ↔
      n ∈ b.validator.model.names ∨ n ∈ ev.registers := by
    intro n
    rw [model_accept, Validator.names_accept, DependencyGraph.mem_foldl_addName]
  obtain ⟨rows, hrows⟩ := b.validator_accept_eq ev
  constructor
  · rw [hrows]
    exact (h.linked.accept ev).withErrors _
  · rw [hrows]
    exact h.wellFiled.addAll _
  · exact h.wellNamed.accept ev
  · intro n hn
    rcases (hkeys n).1 hn with hold | hnew
    · exact (hnames n).2 (.inl (h.announced n hold))
    · cases ev with
      | declareEntity name e => exact (hnames n).2 (.inr hnew)
      | _ => cases hnew
  · intro hvalid n hn
    obtain ⟨hbefore, hfindings⟩ := findings_of_valid h.wellFiled hvalid
    rcases (hnames n).1 hn with hold | hnew
    · exact (hkeys n).2 (.inl (h.built hbefore n hold))
    · rcases Validator.declared_of_registers hfindings hnew with hdeclared | hold
      · exact (hkeys n).2 (.inr hdeclared)
      · exact (hkeys n).2 (.inl (h.built hbefore n hold))

/-- Events keep objects and entities together. -/
theorem foldl_accept (h : b.Covered) (evs : List Event) : (evs.foldl Builder.accept b).Covered := by
  induction evs generalizing b with
  | nil => exact h
  | cons ev evs ih => exact ih (h.accept ev)

/-- Calls keep objects and entities together. -/
theorem foldl_call (h : b.Covered) (evs : List Event) : (evs.foldl Consumer.call b).Covered := by
  induction evs generalizing b with
  | nil => exact h
  | cons ev evs ih =>
    refine ih ?_
    rw [call_eq]
    split
    · exact h.accept ev
    · exact h

/-! ## The objects in emission order -/

/-- Where the objects can be put in order, they are all there, in the order of their entities. -/
theorem of_orderedObjects (h : b.Covered) {objects : List Object}
    (hobjects : b.orderedObjects = .ok objects) :
    b.validator.isValid = true ∧ ∃ order, b.validator.order = .ok order ∧ order.Nodup ∧
      (∀ n, n ∈ order ↔ n ∈ b.objects.keys) ∧ objects = order.filterMap b.objects.find? := by
  unfold orderedObjects at hobjects
  cases hvalid : b.validator.isValid with
  | false => simp [hvalid] at hobjects
  | true =>
    cases horder : b.validator.order with
    | error c => simp [hvalid, horder] at hobjects
    | ok order =>
      obtain ⟨hnodup, hmem⟩ := mem_of_emissionOrder horder
      rw [h.linked.nodes_eq] at hmem
      refine ⟨rfl, order, rfl, hnodup, fun n => (hmem n).trans ?_, ?_⟩
      · exact ⟨h.built hvalid n, h.announced n⟩
      · simpa [hvalid, horder] using hobjects.symm

/-- The objects of a schema that is not refused are all objects of the builder, each once, in the
order of their entities. -/
theorem objects_in_order (h : b.Covered) {objects : List Object}
    (hobjects : b.orderedObjects = .ok objects) :
    ∃ order, b.validator.order = .ok order ∧ order.map b.objects.find? = objects.map some ∧
      objects.Perm b.objects.values ∧ objects.Nodup := by
  obtain ⟨-, order, horder, hnodup, hmem, rfl⟩ := h.of_orderedObjects hobjects
  obtain ⟨hnames, hfound⟩ := h.wellNamed.objects_of_order fun n hn => (hmem n).1 hn
  have hperm : order.Perm b.objects.keys :=
    (List.perm_ext_iff_of_nodup hnodup b.objects.nodup_keys).2 hmem
  refine ⟨order, horder, hfound, ?_, List.Nodup.of_map Object.name (hnames.symm ▸ hnodup)⟩
  rw [← b.objects.filterMap_find?_keys]
  exact hperm.filterMap b.objects.find?

end Covered

end Schema.Builder

/-! ## Main statement -/

/-- However a builder was called, a schema that is not refused is rendered with every object once,
in emission order, and the object of the target of a reference stands before that of its source. -/
theorem context_complete {t : ValidationTables} {options : SchemaOptions} {start : Schema.Builder}
    (hstart : Schema.Builder.ofOptions t options = .ok start) (evs : List Event)
    {objects : List Schema.Object} :
    let b := evs.foldl Consumer.call start
    b.orderedObjects = .ok objects →
      (∀ source, b.render source = (Template.render Template.schemaFilters source
        (Schema.scope b.idField objects)).mapError .template) ∧
      objects.Perm b.objects.values ∧ objects.Nodup ∧
      (∃ order, b.validator.order = .ok order ∧ order.map b.objects.find? = objects.map some) ∧
      ∀ n r c, b.validator.model.reference? n r = some c →
        ∃ target source, b.objects.find? c.target = some target ∧ b.objects.find? n = some source ∧
          [target, source].Sublist objects := by
  intro b hb
  have hcovered : b.Covered := (Schema.Builder.Covered.of_ofOptions hstart).foldl_call evs
  obtain ⟨hvalid, order, horder, hnodup, hmem, rfl⟩ := hcovered.of_orderedObjects hb
  obtain ⟨hnames, hfound⟩ := hcovered.wellNamed.objects_of_order fun n hn => (hmem n).1 hn
  have hperm : order.Perm b.objects.keys :=
    (List.perm_ext_iff_of_nodup hnodup b.objects.nodup_keys).2 hmem
  refine ⟨Schema.Builder.render_of_order hvalid horder, ?_, ?_, ⟨order, horder, hfound⟩, ?_⟩
  · rw [← b.objects.filterMap_find?_keys]
    exact hperm.filterMap b.objects.find?
  · exact List.Nodup.of_map Schema.Object.name (hnames.symm ▸ hnodup)
  · intro n r c hc
    obtain ⟨e, he, -⟩ := Option.bind_eq_some_iff.1 hc
    have hn : n ∈ order := (hmem n).2 (hcovered.built hvalid n (OrderedMap.mem_keys_of_find? he))
    have hbefore : [c.target, n].Sublist order :=
      sublist_of_emissionOrder horder n hn c.target (hcovered.linked.recorded n r c hc)
    have htarget : c.target ∈ order := hbefore.subset (List.mem_cons_self ..)
    obtain ⟨target, ht⟩ := b.objects.exists_find?_of_mem ((hmem c.target).1 htarget)
    obtain ⟨source, hs⟩ := b.objects.exists_find?_of_mem ((hmem n).1 hn)
    refine ⟨target, source, ht, hs, ?_⟩
    simpa [ht, hs] using hbefore.filterMap b.objects.find?

/-- Elements that come in no order of passes, and an entity without a name in between: the pet still
stands before the person that refers to it. -/
theorem context_complete_out_of_turn :
    let pet := ReferenceConfig.ofTarget (.text "Pet")
    let key := AttributeConfig.empty.withFlag "in_key_hash" (.bool true)
    let start : Schema.Builder := ⟨.ofTables .builtIn, "", "graphql", "__id_unique", .empty⟩
    let b := [Event.declareEntity "Person" .empty, .declareEntity "" .empty,
      .declareAttribute "Person" "id" key, .declareEntity "Pet" .empty,
      .declareReference "Person" "pet" pet, .declareAttribute "Pet" "id" key].foldl
        Consumer.call start
    Schema.Builder.ofOptions .builtIn { SchemaOptions.builtIn with template := some "" } =
        .ok start ∧
      ∃ objects, b.orderedObjects = .ok objects ∧ objects.Perm b.objects.values ∧
        objects.Nodup ∧ objects.map Schema.Object.name = ["Pet", "Person"] := by
  intro pet key start b
  have hstart : Schema.Builder.ofOptions .builtIn
      { SchemaOptions.builtIn with template := some "" } = .ok start := rfl
  have hnames : b.orderedObjects.toOption.map (List.map Schema.Object.name) =
      some ["Pet", "Person"] := by
    decide +kernel
  cases hobjects : b.orderedObjects with
  | error e => simp [hobjects, Except.toOption] at hnames
  | ok objects =>
    obtain ⟨-, hperm, hnodup, -, -⟩ := context_complete hstart _ hobjects
    rw [hobjects] at hnames
    exact ⟨hstart, objects, rfl, hperm, hnodup, Option.some.inj hnames⟩

end EntityModel
