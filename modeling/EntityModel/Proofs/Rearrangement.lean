import EntityModel.Proofs.Agreement
import EntityModel.Proofs.Schema.Objects
import EntityModel.Proofs.Validator.Defects
import EntityModel.Proofs.Validator.Dependencies

/-!
# Models in another order

The order in which a model declares its entities, and an entity its attributes and its references,
is kept by all outputs, but decides nothing. What is wrong with a model (`Defect`), which targets
are unknown and what depends on what are read off it by look-ups, and these are the same for a
rearranged model. So the reports of both agree (`Report.Agrees`), and their schemas have the same
objects (`rearranged_agree`).
-/

namespace EntityModel

/-! ## Rearranged models -/

/-- The entities differ in the order of their attributes and of their references only. -/
structure Entity.Rearranged (e e' : Entity) : Prop where
  description : e.description = e'.description
  attributes : e.attributes.entries.Perm e'.attributes.entries
  references : e.references.entries.Perm e'.references.entries

/-- The models differ in the order of their entities, and in that of the attributes and of the
references of each entity, only. -/
def Model.Rearranged (m m' : Model) : Prop :=
  OrderedMap.Rearranged Entity.Rearranged m.entities m'.entities

namespace Entity.Rearranged

variable {e e' : Entity}

/-- An entity is a rearranged one of those that are rearranged ones of it. -/
theorem symm (h : e.Rearranged e') : e'.Rearranged e :=
  ⟨h.description.symm, h.attributes.symm, h.references.symm⟩

/-- Rearranged entities declare the same attributes. -/
theorem mem_keys_attributes (h : e.Rearranged e') {a : String} :
    a ∈ e.attributes.keys ↔ a ∈ e'.attributes.keys :=
  (h.attributes.map Prod.fst).mem_iff

/-- Rearranged entities are normalized to the same attributes, in another order. -/
theorem values_normalized (h : e.Rearranged e') (t : ValidationTables) :
    (t.normalized e).attributes.values.Perm (t.normalized e').attributes.values := by
  have hinjected : t.injected e = t.injected e' := by
    refine congrArg (fun p => t.attributes.filterKeys p) (funext fun a => ?_)
    have hdeclares : e.declares a = e'.declares a := by
      rw [Bool.eq_iff_iff, Entity.declares, Entity.declares, OrderedMap.contains_eq_true,
        OrderedMap.contains_eq_true, h.mem_keys_attributes]
    rw [hdeclares]
  refine List.Perm.map _ ?_
  change ((t.injected e).entries ++ _).Perm ((t.injected e').entries ++ _)
  rw [hinjected]
  exact (h.attributes.map _).append_left _

end Entity.Rearranged

namespace Model.Rearranged

variable {m m' : Model}

/-- A model is a rearranged one of those that are rearranged ones of it. -/
theorem symm (h : m.Rearranged m') : m'.Rearranged m :=
  OrderedMap.Rearranged.symm h fun _ _ => Entity.Rearranged.symm

/-- Rearranged models have the same entities. -/
theorem mem_names (h : m.Rearranged m') (n : String) : n ∈ m.names ↔ n ∈ m'.names :=
  (OrderedMap.Rearranged.keys_perm h).mem_iff

/-- An entity of a model is rearranged in the other one. -/
theorem exists_find? (h : m.Rearranged m') {n : String} {e : Entity} (he : m.find? n = some e) :
    ∃ e', m'.find? n = some e' ∧ e.Rearranged e' :=
  OrderedMap.Rearranged.exists_find? h he

/-- An attribute that an entity of a model declares is declared in the other one. -/
theorem exists_attribute (h : m.Rearranged m') {n a : String} {e : Entity} {d : AttributeDecl}
    (he : m.find? n = some e) (hd : e.attributes.find? a = some d) :
    ∃ e', m'.find? n = some e' ∧ e'.attributes.find? a = some d := by
  obtain ⟨e', he', hrest⟩ := h.exists_find? he
  exact ⟨e', he', OrderedMap.find?_of_perm hrest.attributes a ▸ hd⟩

/-- A reference that an entity of a model declares is declared in the other one. -/
theorem exists_reference (h : m.Rearranged m') {n r : String} {e : Entity} {d : ReferenceDecl}
    (he : m.find? n = some e) (hd : e.references.find? r = some d) :
    ∃ e', m'.find? n = some e' ∧ e'.references.find? r = some d := by
  obtain ⟨e', he', hrest⟩ := h.exists_find? he
  exact ⟨e', he', OrderedMap.find?_of_perm hrest.references r ▸ hd⟩

/-- A model rearranged from a named one is named. -/
theorem named (h : m.Rearranged m') (hm : m.Named) : m'.Named := by
  rintro ⟨n, e'⟩ he'
  obtain ⟨e, he, hrest⟩ := h.symm.exists_find? (m'.entities.mem_entries.1 he')
  obtain ⟨hn, hattributes, hreferences⟩ := hm (n, e) (m.entities.mem_entries.2 he)
  refine ⟨hn, fun ha => hattributes (hrest.mem_keys_attributes.1 ha), fun hr => hreferences ?_⟩
  exact (hrest.references.map Prod.fst).subset hr

/-- Rearranged models declare the same references. -/
theorem mem_referenceEvents (h : m.Rearranged m') {ev : Event} (hev : ev ∈ m.referenceEvents) :
    ev ∈ m'.referenceEvents := by
  obtain ⟨n, e, r, d, he, hd, rfl⟩ := Model.mem_referenceEvents.1 hev
  obtain ⟨e', he', hd⟩ := h.exists_reference he hd
  exact Model.mem_referenceEvents.2 ⟨n, e', r, d, he', hd, rfl⟩

/-- The numbers of what the entities have are the same, summed up in another order. -/
theorem count_eq (h : m.Rearranged m') {count : Entity → Nat}
    (hcount : ∀ e e', e.Rearranged e' → count e = count e') :
    m.entities.values.foldl (fun n e => n + count e) 0 =
      m'.entities.values.foldl (fun n e => n + count e) 0 := by
  have hperm : (m.entities.values.map count).Perm (m'.entities.values.map count) := by
    rw [OrderedMap.values, OrderedMap.values, List.map_map, List.map_map]
    exact OrderedMap.Rearranged.map_perm h fun _ => hcount
  have hfold : ∀ es : List Entity,
      es.foldl (fun n e => n + count e) 0 = (es.map count).foldl (· + ·) 0 := fun _ =>
    List.foldl_map.symm
  rw [hfold, hfold, hperm.foldl_eq]

/-! ## What is found -/

section
variable {t : ValidationTables} {row : ErrorRow}

/-- What is wrong with a model is wrong with the rearranged one. -/
theorem defect (h : m.Rearranged m') (hdefect : Defect t m row) : Defect t m' row := by
  -- All but the lack of a key is found by look-ups of the entity and of one of its elements.
  cases hdefect with
  | collision he ha hat =>
    obtain ⟨e', he', hrest⟩ := h.exists_find? he
    exact .collision he' (hrest.mem_keys_attributes.1 ha) hat
  | attributeType he hd hv hne =>
    obtain ⟨e', he', hd⟩ := h.exists_attribute he hd
    exact .attributeType he' hd hv hne
  | flagKind he hd hf hv hkind =>
    obtain ⟨e', he', hd⟩ := h.exists_attribute he hd
    exact .flagKind he' hd hf hv hkind
  | referenceType he hd ha hv =>
    obtain ⟨e', he', hd⟩ := h.exists_reference he hd
    exact .referenceType he' hd ha hv
  | upperBound he hd ha hv =>
    obtain ⟨e', he', hd⟩ := h.exists_reference he hd
    exact .upperBound he' hd ha hv
  | noTarget he hd hnone =>
    obtain ⟨e', he', hd⟩ := h.exists_reference he hd
    exact .noTarget he' hd hnone
  | invalidTarget he hd hv hnull htext =>
    obtain ⟨e', he', hd⟩ := h.exists_reference he hd
    exact .invalidTarget he' hd hv hnull htext
  | noKey he hkey =>
    obtain ⟨e', he', hrest⟩ := h.exists_find? he
    exact .noKey he' fun a ha => hkey a ((hrest.values_normalized t).mem_iff.2 ha)

/-- An unknown target of a model is unknown in the rearranged one. -/
theorem targetRows (h : m.Rearranged m') (hrow : row ∈ m.targetRows) : row ∈ m'.targetRows := by
  obtain ⟨n, e, r, d, c, he, hd, hc, htarget, rfl⟩ := m.mem_targetRows.1 hrow
  obtain ⟨e', he', hd⟩ := h.exists_reference he hd
  rw [h.mem_names] at htarget
  exact m'.mem_targetRows.2 ⟨n, e', r, d, c, he', hd, hc, htarget, rfl⟩

/-- The check of rearranged models files the same rows, in another order. -/
theorem rows_checked (h : m.Rearranged m') (hm : m.Named) (t : ValidationTables) :
    (m.validated t).checkTargets.2.errors.rows.Perm
      (m'.validated t).checkTargets.2.errors.rows := by
  have hrows : ∀ {m : Model}, m.Named → ∀ row,
      row ∈ (m.validated t).checkTargets.2.errors.rows ↔ row ∈ m.targetRows ∨ Defect t m row := by
    intro m hm row
    rw [Validator.checkTargets_snd, Validator.errors_withErrors, ErrorRecord.mem_rows_addAll,
      mem_unknownTargets_validated, hm.mem_rows_validated]
  refine (List.perm_ext_iff_of_nodup (m.wellFiled_checkTargets t).nodup_rows
    (m'.wellFiled_checkTargets t).nodup_rows).2 fun row => ?_
  rw [hrows hm, hrows (h.named hm)]
  exact ⟨Or.imp h.targetRows h.defect, Or.imp h.symm.targetRows h.symm.defect⟩

/-- The check of rearranged models finds nothing in both or in neither. -/
theorem isEmpty_checked (h : m.Rearranged m') (hm : m.Named) (t : ValidationTables) :
    (m.validated t).checkTargets.2.errors.isEmpty =
      (m'.validated t).checkTargets.2.errors.isEmpty := by
  rw [Bool.eq_iff_iff, (m.wellFiled_checkTargets t).isEmpty_iff,
    (m'.wellFiled_checkTargets t).isEmpty_iff]
  exact forall_congr' fun row => not_congr (h.rows_checked hm t).mem_iff

end

/-! ## What is ordered -/

/-- A reference that a model is normalized to is one of the rearranged model. -/
theorem reference? (h : m.Rearranged m') {t : ValidationTables} {n r : String}
    {c : NormalizedReference} (hc : (t.normalizedModel m).reference? n r = some c) :
    (t.normalizedModel m').reference? n r = some c := by
  obtain ⟨e, d, he, hd, hc⟩ := (m.reference?_normalizedModel t).1 hc
  obtain ⟨e', he', hd⟩ := h.exists_reference he hd
  exact (m'.reference?_normalizedModel t).2 ⟨e', d, he', hd, hc⟩

/-- In rearranged models, the same depends on the same. -/
theorem mem_dependencies (h : m.Rearranged m') (t : ValidationTables) (s x : String) :
    x ∈ (m.validated t).graph.dependencies s ↔ x ∈ (m'.validated t).graph.dependencies s := by
  rw [mem_dependencies_validated, mem_dependencies_validated]
  exact ⟨fun ⟨r, c, hc, hx⟩ => ⟨r, c, h.reference? hc, hx⟩,
    fun ⟨r, c, hc, hx⟩ => ⟨r, c, h.symm.reference? hc, hx⟩⟩

end Model.Rearranged

/-- Both models were put in order, or neither was: the same was placed, and the same was left. -/
inductive OrderOutcome.Agrees : OrderOutcome → OrderOutcome → Prop
  | ordered {order order' : List String} :
      order.Perm order' → Agrees (.ordered order) (.ordered order')
  | cyclic {c c' : CycleDetected} : c.resolved.Perm c'.resolved →
      c.unresolved.Perm c'.unresolved → Agrees (.cyclic c) (.cyclic c')

/-- Placements of the same nodes that leave the same nodes have outcomes that agree. -/
theorem Placement.agrees_order? {p p' : Placement} (hplaced : p.placed.Perm p'.placed)
    (hleft : p.left.Perm p'.left) :
    (OrderOutcome.ofOrder p.order?).Agrees (.ofOrder p'.order?) := by
  unfold order?
  rw [hleft.isEmpty_eq]
  split
  · exact .ordered hplaced
  · exact .cyclic hplaced hleft

/-- The orders of rearranged models agree. -/
theorem Model.Rearranged.agrees_order {m m' : Model} (h : m.Rearranged m') (t : ValidationTables) :
    (OrderOutcome.ofOrder (m.validated t).order).Agrees (.ofOrder (m'.validated t).order) := by
  have hnodes : ∀ n, n ∈ (m.validated t).graph.nodes ↔ n ∈ (m'.validated t).graph.nodes := by
    intro n
    rw [nodes_validated, nodes_validated, h.mem_names]
  obtain ⟨hplaced, hleft⟩ := emissionOrder_perm hnodes (h.mem_dependencies t)
  exact Placement.agrees_order? hplaced hleft

/-! ## Reports -/

/-- The reports say the same but for the order of what they list: they have the same errors, the
same counts and the same verdict, and the outcomes of the orderings agree. -/
structure Report.Agrees (r r' : Report) : Prop where
  rows : r.errors.rows.Perm r'.errors.rows
  valid : r.valid = r'.valid
  summary : r.summary = r'.summary
  order : ∃ o o', r.order = some o ∧ r'.order = some o' ∧ o.Agrees o'

/-- Reports that agree are both successes, or neither is. -/
theorem Report.Agrees.isSuccess {r r' : Report} (h : r.Agrees r') :
    r.isSuccess = r'.isSuccess := by
  obtain ⟨o, o', ho, ho', hagrees⟩ := h.order
  rw [Report.isSuccess, Report.isSuccess, h.valid, ho, ho']
  cases hagrees <;> rfl

/-- Rearranged models count the same, if the same errors were found in them. -/
theorem Model.Rearranged.summary_ofModel {m m' : Model} (h : m.Rearranged m')
    {errors errors' : ErrorRecord} (hrows : errors.rows.Perm errors'.rows)
    (timestamp timestamp' : String) :
    (Report.ofModel timestamp m errors).summary =
      (Report.ofModel timestamp' m' errors').summary := by
  have hsize : m.size = m'.size := by
    simpa [OrderedMap.keys, size, OrderedMap.size] using
      (OrderedMap.Rearranged.keys_perm h).length_eq
  have hattributes : m.attributeCount = m'.attributeCount :=
    h.count_eq fun _ _ hrest => hrest.attributes.length_eq
  have hreferences : m.referenceCount = m'.referenceCount :=
    h.count_eq fun _ _ hrest => hrest.references.length_eq
  have herrors : errors.size = errors'.size := by
    rw [← errors.length_rows, ← errors'.length_rows, hrows.length_eq]
  rw [Report.ofModel, Report.ofModel, hsize, hattributes, hreferences, herrors]

/-- The reports of rearranged models agree. -/
theorem Model.Rearranged.agrees_report {m m' : Model} (h : m.Rearranged m') (hm : m.Named)
    (t : ValidationTables) (timestamp timestamp' : String) :
    ∃ r r', Report.check timestamp t m = .ok r ∧ Report.check timestamp' t m' = .ok r' ∧
      r.Agrees r' := by
  have hcheck := hm.check_eq t timestamp
  have hcheck' := (h.named hm).check_eq t timestamp'
  have hrows := h.rows_checked hm t
  have hvalid := h.isEmpty_checked hm t
  generalize (m.validated t).checkTargets.2.errors = errors at *
  generalize (m'.validated t).checkTargets.2.errors = errors' at *
  have hsummary := h.summary_ofModel hrows timestamp timestamp'
  exact ⟨_, _, hcheck, hcheck', hrows, hvalid, hsummary, _, _, rfl, rfl, h.agrees_order t⟩

/-! ## Objects -/

/-- The objects differ in the order of their fields only. -/
structure Schema.Object.Rearranged (o o' : Schema.Object) : Prop where
  fields : o.fields.Perm o'.fields
  others : { o with fields := o'.fields } = o'

/-- A reference is known by the set of the entities. -/
theorem ReferenceConfig.known?_congr {names names' : List String}
    (h : ∀ n, n ∈ names ↔ n ∈ names') (c : ReferenceConfig) : c.known? names = c.known? names' := by
  refine Option.ext fun r => ?_
  rw [known?_eq_some, known?_eq_some, h]

/-- The reference of an event is known by the set of the entities. -/
theorem Event.known?_congr {names names' : List String} (h : ∀ n, n ∈ names ↔ n ∈ names')
    (ev : Event) : ev.known? names = ev.known? names' := by
  cases ev with
  | declareReference entity name c => exact c.known?_congr h
  | _ => rfl

namespace Model.Rearranged

variable {m m' : Model}

/-- An entity that a model pages is paged by the rearranged one. -/
theorem pages (h : m.Rearranged m') {ns n : String} (hpages : m.pages ns n = true) :
    m'.pages ns n = true := by
  obtain ⟨ev, hev, hpaged⟩ := List.any_eq_true.1 hpages
  rw [Event.known?_congr h.mem_names] at hpaged
  exact List.any_eq_true.2 ⟨ev, h.mem_referenceEvents hev, hpaged⟩

/-- The object of a rearranged entity has the same fields, in another order. -/
theorem object (h : m.Rearranged m') (t : ValidationTables) (ns n : String) {e e' : Entity}
    (hrest : e.Rearranged e') : (m.object t ns n e).Rearranged (m'.object t ns n e') := by
  have hpages : m.pages ns n = m'.pages ns n := Bool.eq_iff_iff.2 ⟨h.pages, h.symm.pages⟩
  have hknown : ∀ c : ReferenceConfig, c.known? m.names = c.known? m'.names :=
    ReferenceConfig.known?_congr h.mem_names
  constructor
  · simp only [Model.object, hknown]
    exact ((hrest.attributes.map _).append (hrest.references.filterMap _)).append_left _
  · simp only [Model.object, Schema.Object.extend, hpages, hrest.description]

end Model.Rearranged

/-! ## Main statement -/

/-- The order in which a model declares its entities, their attributes and their references decides
nothing. The reports of rearranged models have the same errors and the same verdict, and either both
have an order or both the same unresolved entities; their schemas are both valid or both not, and
have the same objects, with the same fields and connections. -/
theorem rearranged_agree (t : ValidationTables) {m m' : Model} (h : m.Rearranged m')
    (hm : m.Named) :
    (∀ timestamp timestamp', ∃ r r', Report.check timestamp t m = .ok r ∧
      Report.check timestamp' t m' = .ok r' ∧ r.Agrees r' ∧ r.isSuccess = r'.isSuccess) ∧
    ∀ options start, Schema.Builder.ofOptions t options = .ok start →
      ∃ b b', m.parseWith start = (b, none) ∧ m'.parseWith start = (b', none) ∧
        Consumer.isValid b = Consumer.isValid b' ∧
        b.objects.Rearranged Schema.Object.Rearranged b'.objects := by
  constructor
  · intro timestamp timestamp'
    obtain ⟨r, r', hr, hr', hagrees⟩ := h.agrees_report hm t timestamp timestamp'
    exact ⟨r, r', hr, hr', hagrees, hagrees.isSuccess⟩
  · intro options start hstart
    obtain ⟨hvalidator, -⟩ := Schema.Builder.of_ofOptions hstart
    obtain ⟨hparse, -, -, -, hvalid⟩ :=
      hm.inner_parseWith Schema.Builder.handle_eq_ok Schema.Builder.validator_accept hvalidator
    obtain ⟨hparse', -, -, -, hvalid'⟩ := (h.named hm).inner_parseWith
      Schema.Builder.handle_eq_ok Schema.Builder.validator_accept hvalidator
    refine ⟨_, _, hparse, hparse', ?_, ?_⟩
    · exact hvalid.trans ((h.isEmpty_checked hm t).trans hvalid'.symm)
    · rw [Schema.Builder.objects_parsed hstart, Schema.Builder.objects_parsed hstart]
      exact OrderedMap.Rearranged.mapValues h fun n _ _ hrest => h.object t start.ns n hrest

/-- A person and a house that refer to each other and have no keys, declared in two orders at all
levels. Neither model has an order; the names that are left stand as they are declared. -/
theorem rearranged_agree_of_person :
    let age := AttributeDecl.shorthand (.text "number")
    let name := AttributeDecl.shorthand (.text "string")
    let boss := ReferenceDecl.shorthand (.text "Person")
    let home := ReferenceDecl.shorthand (.text "House")
    let person : Entity :=
      ⟨none, .ofList [("age", age), ("name", name)], .ofList [("boss", boss), ("home", home)]⟩
    let person' : Entity :=
      ⟨none, .ofList [("name", name), ("age", age)], .ofList [("home", home), ("boss", boss)]⟩
    let house := Entity.empty.withReference "owner" (.shorthand (.text "Person"))
    let m : Model := ⟨.ofList [("Person", person), ("House", house)]⟩
    let m' : Model := ⟨.ofList [("House", house), ("Person", person')]⟩
    let start : Schema.Builder := ⟨.ofTables .builtIn, "", "graphql", "__id_unique", .empty⟩
    m.Rearranged m' ∧ m.Named ∧
      Schema.Builder.ofOptions .builtIn { SchemaOptions.builtIn with template := some "" } =
        .ok start ∧
      ∃ r r' b b', Report.check "" .builtIn m = .ok r ∧ Report.check "" .builtIn m' = .ok r' ∧
        r.order = some (.cyclic ⟨[], ["Person", "House"]⟩) ∧
        r'.order = some (.cyclic ⟨[], ["House", "Person"]⟩) ∧
        r.Agrees r' ∧ r.isSuccess = r'.isSuccess ∧
        m.parseWith start = (b, none) ∧ m'.parseWith start = (b', none) ∧
        b.objects.Rearranged Schema.Object.Rearranged b'.objects := by
  intro age name boss home person person' house m m' start
  have hperson : person.Rearranged person' := ⟨rfl, .swap .., .swap ..⟩
  have hhouse : house.Rearranged house := ⟨rfl, .refl _, .refl _⟩
  have h : m.Rearranged m' :=
    ⟨[("Person", person'), ("House", house)],
      .cons ⟨rfl, hperson⟩ (.cons ⟨rfl, hhouse⟩ .nil), .swap ..⟩
  have hm : m.Named := by decide
  have hstart : Schema.Builder.ofOptions .builtIn
      { SchemaOptions.builtIn with template := some "" } = .ok start := rfl
  have horders : (Report.check "" .builtIn m).toOption.map Report.order =
        some (some (.cyclic ⟨[], ["Person", "House"]⟩)) ∧
      (Report.check "" .builtIn m').toOption.map Report.order =
        some (some (.cyclic ⟨[], ["House", "Person"]⟩)) := by
    decide +kernel
  obtain ⟨hreports, hschemas⟩ := rearranged_agree .builtIn h hm
  obtain ⟨r, r', hr, hr', hagrees, hsuccess⟩ := hreports "" ""
  obtain ⟨b, b', hb, hb', -, hobjects⟩ := hschemas _ start hstart
  rw [hr, hr'] at horders
  obtain ⟨horder, horder'⟩ := horders
  exact ⟨h, hm, hstart, r, r', b, b', hr, hr', Option.some.inj horder, Option.some.inj horder',
    hagrees, hsuccess, hb, hb', hobjects⟩

end EntityModel
