import EntityModel.Proofs.Validator.Targets
import EntityModel.Schema.Render

/-!
# The builder of a schema

The builder keeps an object for each declared entity, under its name (`Builder.WellNamed`) and in
declared order (`Builder.keys_foldl`). The validator inside takes part in the parse as by itself,
with a check of each target (`Builder.validator_accept`). Whether a schema is rendered depends on
the validator alone (`Builder.not_refused_iff`).
-/

namespace EntityModel

namespace Schema.Builder

variable {b : Builder}

/-! ## Objects -/

/-- Every object is kept under its own name. -/
def WellNamed (b : Builder) : Prop := ∀ n o, b.objects.find? n = some o → o.name = n

@[simp] theorem keys_modifyObject (name : String) (f : Object → Object) :
    (b.modifyObject name f).objects.keys = b.objects.keys :=
  OrderedMap.keys_modify ..

/-- A changed object, among those of the builder. -/
theorem find?_modifyObject (b : Builder) (name : String) (f : Object → Object) (n : String) :
    (b.modifyObject name f).objects.find? n =
      if n = name then (b.objects.find? n).map f else b.objects.find? n :=
  OrderedMap.find?_modify ..

/-- A change that keeps the name of an object keeps all objects under their names. -/
theorem WellNamed.modifyObject (h : b.WellNamed) (name : String) {f : Object → Object}
    (hf : ∀ o, (f o).name = o.name) : (b.modifyObject name f).WellNamed := by
  intro n o ho
  rw [find?_modifyObject] at ho
  split at ho
  · obtain ⟨o', ho', rfl⟩ := Option.map_eq_some_iff.1 ho
    rw [hf]
    exact h n o' ho'
  · exact h n o ho

/-- The field of a reference changes the objects only. -/
theorem validator_addReferenceField (b : Builder) (entity name : String)
    (r : NormalizedReference) :
    (b.addReferenceField entity name r).validator = b.validator := by
  by_cases h : r.cardinality b.ns = .connection <;>
    simp [addReferenceField, modifyObject, h]

/-- The field of a reference adds no object. -/
theorem keys_addReferenceField (b : Builder) (entity name : String) (r : NormalizedReference) :
    (b.addReferenceField entity name r).objects.keys = b.objects.keys := by
  by_cases h : r.cardinality b.ns = .connection <;> simp [addReferenceField, h]

/-- The field of a reference and the connection to its target keep objects under their names. -/
theorem WellNamed.addReferenceField (h : b.WellNamed) (entity name : String)
    (r : NormalizedReference) : (b.addReferenceField entity name r).WellNamed := by
  unfold Builder.addReferenceField
  refine WellNamed.modifyObject ?_ entity fun _ => rfl
  split
  · exact h.modifyObject r.target fun _ => rfl
  · exact h

/-! ## Events -/

/-- A reference without a known target changes the validator only. -/
theorem accept_of_unknown {entity name : String} {c : ReferenceConfig} {v : Validator}
    (h : b.validator.acceptChecked (.declareReference entity name c) = (none, v)) :
    b.accept (.declareReference entity name c) = { b with validator := v } := by
  simp only [accept, h]

/-- A reference becomes a field once its target is known. -/
theorem accept_of_known {entity name : String} {c : ReferenceConfig} {r : NormalizedReference}
    {v : Validator}
    (h : b.validator.acceptChecked (.declareReference entity name c) = (some r, v)) :
    b.accept (.declareReference entity name c) =
      { b with validator := v }.addReferenceField entity name r := by
  simp only [accept, h]

/-- A builder takes every event about a named element. -/
theorem handle_eq_ok (b : Builder) (ev : Event) (h : ev.nameError? = none) :
    Consumer.handle b ev = .ok (b.accept ev) := by
  simp only [Consumer.handle, h]

/-- The validator inside checks each target when its reference is handled. -/
theorem validator_accept (b : Builder) (ev : Event) :
    (b.accept ev).validator = (b.validator.acceptChecked ev).2 := by
  cases ev with
  | declareEntity name e => rfl
  | declareAttribute entity name c => rfl
  | declareReference entity name c =>
    rcases h : b.validator.acceptChecked (.declareReference entity name c) with ⟨_ | r, v⟩
    · rw [accept_of_unknown h]
    · rw [accept_of_known h, validator_addReferenceField]
  | finish => rfl

/-- An event makes of the validator inside what it makes of one by itself, but for the errors, to
which rows about the target may be added. -/
theorem validator_accept_eq (b : Builder) (ev : Event) :
    ∃ rows, (b.accept ev).validator = (b.validator.accept ev).withErrors
      (b.validator.errors.addAll (b.validator.findings ev ++ rows)) := by
  obtain ⟨rows, hrows⟩ := b.validator.acceptChecked_snd ev
  refine ⟨rows, ?_⟩
  rw [validator_accept, hrows, Validator.errors_accept, ErrorRecord.addAll_append]

/-- The entities after an event are those of the validator by itself. -/
theorem model_accept (b : Builder) (ev : Event) :
    (b.accept ev).validator.model = (b.validator.accept ev).model := by
  obtain ⟨rows, hrows⟩ := b.validator_accept_eq ev
  rw [hrows, Validator.model_withErrors]

/-- An event does not change the tables. -/
@[simp] theorem tables_accept (b : Builder) (ev : Event) :
    (b.accept ev).validator.tables = b.validator.tables := by
  obtain ⟨rows, hrows⟩ := b.validator_accept_eq ev
  rw [hrows]
  exact b.validator.tables_accept ev

/-- The field of a reference is one in the namespace of the builder, which stays. -/
theorem ns_addReferenceField (b : Builder) (entity name : String) (r : NormalizedReference) :
    (b.addReferenceField entity name r).ns = b.ns := by
  by_cases h : r.cardinality b.ns = .connection <;>
    simp [addReferenceField, modifyObject, h]

/-- An event does not change the namespace of annotations. -/
@[simp] theorem ns_accept (b : Builder) (ev : Event) : (b.accept ev).ns = b.ns := by
  cases ev with
  | declareReference entity name c =>
    rcases h : b.validator.acceptChecked (.declareReference entity name c) with ⟨_ | r, v⟩
    · rw [accept_of_unknown h]
    · rw [accept_of_known h, ns_addReferenceField]
  | _ => rfl

/-- An event changes the validator and the objects only. -/
theorem accept_eq (b : Builder) (ev : Event) : b.accept ev =
    ⟨(b.accept ev).validator, b.template, b.ns, b.idField, (b.accept ev).objects⟩ := by
  cases ev with
  | declareReference entity name c =>
    rcases h : b.validator.acceptChecked (.declareReference entity name c) with ⟨_ | r, v⟩
    · rw [accept_of_unknown h]
    · rw [accept_of_known h]
      by_cases hkind : r.cardinality b.ns = .connection <;>
        simp [addReferenceField, modifyObject, hkind]
  | _ => rfl

/-- An event adds an object for the entity that it declares. -/
theorem keys_accept (b : Builder) (ev : Event) :
    (b.accept ev).objects.keys =
      ev.declares.foldl (fun ns n => DependencyGraph.addName n ns) b.objects.keys := by
  cases ev with
  | declareEntity name e => exact OrderedMap.keys_insert_eq_addName ..
  | declareAttribute entity name c => exact keys_modifyObject ..
  | declareReference entity name c =>
    rcases h : b.validator.acceptChecked (.declareReference entity name c) with ⟨_ | r, v⟩
    · rw [accept_of_unknown h]
      rfl
    · rw [accept_of_known h, keys_addReferenceField]
      rfl
  | finish => rfl

/-- An event keeps objects under their names. -/
theorem WellNamed.accept (h : b.WellNamed) (ev : Event) : (b.accept ev).WellNamed := by
  cases ev with
  | declareEntity name e =>
    intro n o ho
    have hfind : (if name = n then some _ else b.objects.find? n) = some o :=
      (OrderedMap.find?_insert ..).symm.trans ho
    split at hfind
    · next hn =>
      cases hfind
      exact hn
    · exact h n o hfind
  | declareAttribute entity name c =>
    exact WellNamed.modifyObject (b := { b with validator := _ }) h entity fun _ => rfl
  | declareReference entity name c =>
    rcases hc : b.validator.acceptChecked (.declareReference entity name c) with ⟨_ | r, v⟩
    · rw [accept_of_unknown hc]
      exact h
    · rw [accept_of_known hc]
      exact WellNamed.addReferenceField (b := { b with validator := v }) h entity name r
  | finish => exact h

/-- Events make of the validator inside what they make of one by itself, but for the errors. -/
theorem model_foldl (b : Builder) (evs : List Event) :
    (evs.foldl accept b).validator.model = (evs.foldl Validator.accept b.validator).model := by
  obtain ⟨r, hr⟩ := b.validator.foldl_acceptChecked evs
  rw [Validator.inner_foldl validator_accept, hr, Validator.model_withErrors]

/-- Events change neither the namespace of annotations nor the tables. -/
theorem foldl_options (b : Builder) (evs : List Event) :
    (evs.foldl accept b).ns = b.ns ∧
      (evs.foldl accept b).validator.tables = b.validator.tables := by
  induction evs generalizing b with
  | nil => exact ⟨rfl, rfl⟩
  | cons ev evs ih =>
    obtain ⟨hns, htables⟩ := ih (b.accept ev)
    exact ⟨hns.trans (b.ns_accept ev), htables.trans (b.tables_accept ev)⟩

/-- Events change the validator and the objects only. -/
theorem foldl_eq (b : Builder) (evs : List Event) : evs.foldl accept b =
    ⟨(evs.foldl accept b).validator, b.template, b.ns, b.idField,
      (evs.foldl accept b).objects⟩ := by
  induction evs generalizing b with
  | nil => rfl
  | cons ev evs ih => rw [List.foldl_cons, ih, accept_eq]

/-- Events add objects for the entities that they declare, in their order. -/
theorem keys_foldl (b : Builder) (evs : List Event) :
    (evs.foldl accept b).objects.keys =
      (evs.flatMap Event.declares).foldl (fun ns n => DependencyGraph.addName n ns)
        b.objects.keys := by
  induction evs generalizing b with
  | nil => rfl
  | cons ev evs ih => rw [List.foldl_cons, ih, keys_accept, List.flatMap_cons, List.foldl_append]

/-- Events keep objects under their names. -/
theorem WellNamed.foldl (h : b.WellNamed) (evs : List Event) :
    (evs.foldl Builder.accept b).WellNamed := by
  induction evs generalizing b with
  | nil => exact h
  | cons ev evs ih => exact ih (h.accept ev)

/-- A fresh builder has a fresh validator and no object. -/
theorem of_ofOptions {t : ValidationTables} {options : SchemaOptions}
    (h : ofOptions t options = .ok b) : b.validator = .ofTables t ∧ b.objects = .empty := by
  unfold ofOptions at h
  split at h
  · cases h
  · cases h
    exact ⟨rfl, rfl⟩

/-- A fresh builder takes the namespace of annotations from its options. -/
theorem ns_ofOptions {t : ValidationTables} {options : SchemaOptions}
    (h : ofOptions t options = .ok b) : b.ns = options.ns := by
  unfold ofOptions at h
  split at h
  · cases h
  · cases h
    rfl

/-- The parse of a model adds objects for its entities, each under its name. -/
theorem objects_foldl_events (h : b.objects = .empty) (m : Model) :
    (m.events.foldl accept b).objects.keys = m.names ∧ (m.events.foldl accept b).WellNamed := by
  have hnodup : ([] ++ m.names).Nodup := m.entities.nodup_keys
  have hempty : b.WellNamed := fun n o ho => by simp [h] at ho
  refine ⟨?_, hempty.foldl m.events⟩
  rw [keys_foldl, Model.flatMap_declares, h]
  exact DependencyGraph.foldl_addName_of_nodup hnodup

/-! ## Rendering -/

/-- Known names give their objects, each under its name. -/
theorem WellNamed.objects_of_order (h : b.WellNamed) {order : List String}
    (horder : ∀ n ∈ order, n ∈ b.objects.keys) :
    (order.filterMap b.objects.find?).map Object.name = order ∧
      order.map b.objects.find? = (order.filterMap b.objects.find?).map some := by
  induction order with
  | nil => exact ⟨rfl, rfl⟩
  | cons n order ih =>
    obtain ⟨o, ho⟩ := b.objects.exists_find?_of_mem (horder n (List.mem_cons_self ..))
    obtain ⟨hnames, hobjects⟩ := ih fun n' hn' => horder n' (List.mem_cons_of_mem _ hn')
    rw [List.filterMap_cons_some ho, List.map_cons, List.map_cons, List.map_cons, h n o ho, hnames,
      ho, hobjects]
    exact ⟨rfl, rfl⟩

/-- A schema of a valid model that can be ordered is its template, rendered with the objects in
that order. -/
theorem render_of_order {order : List String} (hvalid : b.validator.isValid = true)
    (horder : b.validator.order = .ok order) (source : String) :
    b.render source = (Template.render Template.schemaFilters source
      (scope b.idField (order.filterMap b.objects.find?))).mapError .template := by
  have hobjects : b.orderedObjects = .ok (order.filterMap b.objects.find?) := by
    simp [orderedObjects, hvalid, horder]
  simp only [render, hobjects]
  generalize Template.render Template.schemaFilters source _ = rendered
  cases rendered <;> rfl

/-- A schema is not refused exactly if the model is valid and can be ordered. -/
theorem not_refused_iff (source : String) :
    ((∀ n, b.render source ≠ .error (.invalidModel n)) ∧
      ∀ c, b.render source ≠ .error (.cycle c)) ↔
      b.validator.isValid = true ∧ ∃ order, b.validator.order = .ok order := by
  constructor
  · rintro ⟨hmodel, hcycle⟩
    cases hvalid : b.validator.isValid with
    | false =>
      exact absurd (by simp [render, orderedObjects, hvalid]) (hmodel b.validator.errors.size)
    | true =>
      cases horder : b.validator.order with
      | error c => exact absurd (by simp [render, orderedObjects, hvalid, horder]) (hcycle c)
      | ok order => exact ⟨rfl, order, rfl⟩
  · rintro ⟨hvalid, order, horder⟩
    rw [render_of_order hvalid horder]
    cases Template.render Template.schemaFilters source
      (scope b.idField (order.filterMap b.objects.find?)) <;> simp [Except.mapError]

end Schema.Builder

end EntityModel
