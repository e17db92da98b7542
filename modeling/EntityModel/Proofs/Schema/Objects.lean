import EntityModel.Proofs.Schema.Builder
import EntityModel.Proofs.Validator.NormalForm

/-!
# The objects of a schema

Away from the declaration of an entity, its object only grows: an event about the entity adds at
most one field, and a paged reference to it marks it with its connection, whoever declares the
reference (`Builder.find?_accept`). In the parse of a model all entities come first, so each object
gets the fields of its attributes and then those of its references (`Builder.find?_parsed`). What
these say of one another is `Builder.ObjectOf`: a field has the type of the object it leads to, and
the connections in use are those of the objects marked (`parseWith_objects`).
-/

namespace EntityModel

/-! ## What an event says of objects -/

/-- The reference is paged in the namespace, and the entity is its target. -/
def NormalizedReference.pages (r : NormalizedReference) (ns n : String) : Bool :=
  r.cardinality ns = .connection ∧ r.target = n

/-- The field that an event stands for; a reference has one if it is known, as the one given. -/
def Event.field? (t : ValidationTables) (ns : String) (known : Option NormalizedReference) :
    Event → Option Schema.Field
  | .declareAttribute _ name c =>
    some (.ofAttribute name (t.complete c).typeName (c.description.getD ""))
  | .declareReference _ name _ =>
    known.map fun r => .ofReference name r.target r.description (r.cardinality ns)
  | _ => none

namespace Schema

/-- The object of an entity with further fields, and with its connection if it is paged. -/
def Object.extend (o : Object) (n : String) (fields : List Field) (paged : Bool) : Object :=
  { o with
    fields := o.fields ++ fields
    connection := if paged then some (Naming.connectionName n) else o.connection }

@[simp] theorem Object.extend_nil (o : Object) (n : String) : o.extend n [] false = o := by
  simp [extend]

theorem Object.extend_extend (o : Object) (n : String) (fs gs : List Field) (p q : Bool) :
    (o.extend n fs p).extend n gs q = o.extend n (fs ++ gs) (p || q) := by
  cases q <;> simp [extend]

end Schema

namespace Schema.Builder

/-! ## What an event makes of an object -/

/-- The declaration of an entity starts its object anew. -/
theorem find?_accept_declared (b : Builder) (n : String) (e : Entity) :
    (b.accept (.declareEntity n e)).objects.find? n =
      some (.ofEntity n (e.description.getD "")) := by
  simp [accept, addObject]

/-- The type of an attribute that is there is that of the attribute with its defaults. -/
theorem typeOf_accept (b : Builder) (entity name : String) (c : AttributeConfig) :
    let v := b.validator.accept (.declareAttribute entity name c)
    { b with validator := v }.typeOf entity name c =
      (b.validator.tables.complete c).typeName := by
  simp [typeOf, Validator.attribute?_accept]

/-- The field of a reference extends the object of the entity, and if it is paged, also marks that
of the target; they may be the same. -/
theorem find?_addReferenceField (b : Builder) (entity name : String) (r : NormalizedReference)
    (n : String) :
    (b.addReferenceField entity name r).objects.find? n =
      (b.objects.find? n).map fun o => o.extend n
        (if entity = n then [.ofReference name r.target r.description (r.cardinality b.ns)] else [])
        (r.pages b.ns n) := by
  have hmarked : (if r.cardinality b.ns = .connection then
      b.modifyObject r.target fun o => o.connect r.target else b).objects.find? n =
        (b.objects.find? n).map fun o => o.extend n [] (r.pages b.ns n) := by
    by_cases hkind : r.cardinality b.ns = .connection
    · by_cases htarget : r.target = n
      · simp [find?_modifyObject, NormalizedReference.pages, hkind, htarget, Object.extend,
          Object.connect]
      · simp [find?_modifyObject, NormalizedReference.pages, hkind, htarget, Ne.symm htarget]
    · simp [NormalizedReference.pages, hkind]
  simp only [addReferenceField, find?_modifyObject, hmarked]
  by_cases hentity : entity = n
  · rw [if_pos hentity.symm, if_pos hentity, Option.map_map]
    refine congrFun (congrArg _ (funext fun o => ?_)) _
    simp [Object.extend, Object.addField]
  · rw [if_neg (Ne.symm hentity), if_neg hentity]

/-- An event that does not declare an entity extends the object of it. -/
theorem find?_accept (b : Builder) {ev : Event} {n : String} (h : n ∉ ev.declares) :
    let known := (b.validator.acceptChecked ev).1
    (b.accept ev).objects.find? n = (b.objects.find? n).map fun o => o.extend n
      (if ev.entity? = some n then (ev.field? b.validator.tables b.ns known).toList else [])
      (known.any fun r => r.pages b.ns n) := by
  cases ev with
  | declareEntity name e =>
    have hne : name ≠ n := fun hname => h (List.mem_singleton.2 hname.symm)
    have hfind : (b.accept (.declareEntity name e)).objects.find? n = b.objects.find? n := by
      simp [accept, addObject, hne]
    simp [hfind, Event.entity?, hne, Validator.acceptChecked]
  | declareAttribute entity name c =>
    have hfind : (b.accept (.declareAttribute entity name c)).objects.find? n =
        if n = entity then (b.objects.find? n).map fun o => o.addField
          (.ofAttribute name (b.validator.tables.complete c).typeName (c.description.getD ""))
        else b.objects.find? n := by
      rw [← b.typeOf_accept entity name c]
      exact find?_modifyObject ..
    rw [hfind]
    by_cases hentity : entity = n
    · simp [Event.entity?, Event.field?, hentity, Validator.acceptChecked, Object.extend,
        Object.addField]
    · simp [Event.entity?, hentity, Ne.symm hentity, Validator.acceptChecked]
  | declareReference entity name c =>
    rcases hc : b.validator.acceptChecked (.declareReference entity name c) with ⟨_ | r, v⟩
    · simp [accept_of_unknown hc, Event.field?]
    · rw [accept_of_known hc, find?_addReferenceField]
      simp [Event.entity?, Event.field?]
  | finish => simp [accept, Event.entity?, Validator.acceptChecked]

/-! ## Objects in the parse of a model -/

/-- The elements that are awaited extend the objects of their entities, each in its turn. -/
theorem find?_foldl_elements {names : List String} {evs : List Event} (b : Builder)
    (hnames : b.validator.model.names = names) (h : b.validator.Awaits evs) (n : String) :
    (evs.foldl accept b).objects.find? n = (b.objects.find? n).map fun o => o.extend n
      ((evs.filter fun ev => ev.entity? = some n).filterMap fun ev =>
        ev.field? b.validator.tables b.ns (ev.known? names))
      (evs.any fun ev => (ev.known? names).any fun r => r.pages b.ns n) := by
  induction evs generalizing b with
  | nil => simp
  | cons ev evs ih =>
    have hdeclares : n ∉ ev.declares := by
      have helement := h.elements ev (List.mem_cons_self ..)
      cases ev with
      | declareEntity name e => cases helement
      | _ => exact List.not_mem_nil
    have hafter : (b.accept ev).validator.model.names = names := by
      rw [model_accept, h.names_accept, hnames]
    have hknown : (b.validator.acceptChecked ev).1 = ev.known? names :=
      hnames ▸ h.acceptChecked_fst
    rw [List.foldl_cons, ih (b.accept ev) hafter (h.accept.of_model_eq (b.model_accept ev)),
      b.find?_accept hdeclares, hknown, tables_accept, ns_accept, Option.map_map]
    refine congrFun (congrArg _ (funext fun o => ?_)) _
    rw [Function.comp_apply, Object.extend_extend]
    by_cases hn : ev.entity? = some n
    · cases hfield : ev.field? b.validator.tables b.ns (ev.known? names) <;> simp [hn, hfield]
    · simp [hn]

end Schema.Builder

namespace Model

variable (t : ValidationTables) (ns : String) (m : Model)

/-- Some reference of the model to the entity is paged. -/
def pages (n : String) : Bool :=
  m.referenceEvents.any fun ev => (ev.known? m.names).any fun r => r.pages ns n

/-- The object of an entity of the model. -/
def object (n : String) (e : Entity) : Schema.Object :=
  (Schema.Object.ofEntity n (e.description.getD "")).extend n
    ((e.attributes.entries.map fun a => .ofAttribute a.1 (t.complete a.2.config).typeName
        (a.2.config.description.getD "")) ++
      e.references.entries.filterMap fun r => (r.2.config.known? m.names).map fun c =>
        .ofReference r.1 c.target c.description (c.cardinality ns))
    (m.pages ns n)

/-- The elements of an entity stand for the fields of its object. -/
theorem filterMap_field? {m : Model} {n : String} {e : Entity} (he : m.find? n = some e) :
    ((m.elementEvents.filter fun ev => ev.entity? = some n).filterMap fun ev =>
      ev.field? t ns (ev.known? m.names)) = (m.object t ns n e).fields := by
  rw [elementEvents, List.filter_append, filter_attributeEvents he, filter_referenceEvents he,
    List.filterMap_append, Entity.attributeEvents, Entity.referenceEvents, List.filterMap_map,
    List.filterMap_map]
  exact congrArg (· ++ _) (congrFun List.filterMap_eq_map _)

/-- Of the elements, only references mark objects. -/
theorem any_elementEvents (n : String) :
    (m.elementEvents.any fun ev => (ev.known? m.names).any fun r => r.pages ns n) =
      m.pages ns n := by
  have hattributes :
      (m.attributeEvents.any fun ev => (ev.known? m.names).any fun r => r.pages ns n) = false := by
    refine List.any_eq_false.2 fun ev hev => ?_
    obtain ⟨n, e, a, d, -, -, rfl⟩ := mem_attributeEvents.1 hev
    exact Bool.false_ne_true
  rw [elementEvents, List.any_append, hattributes, Bool.false_or, pages]

end Model

namespace Schema.Builder

/-- The declarations of entities insert their objects, without fields. -/
theorem objects_foldl_entities (es : List (String × Entity)) (b : Builder) :
    ((es.map fun e => Event.declareEntity e.1 e.2).foldl accept b).objects =
      b.objects.insertAll (es.map fun e => (e.1, .ofEntity e.1 (e.2.description.getD ""))) := by
  induction es generalizing b with
  | nil => rfl
  | cons e es ih => exact ih _

/-- The first pass makes the objects of a model, without fields. -/
theorem objects_foldl_entityEvents {b : Builder} (h : b.objects = .empty) (m : Model) :
    (m.entityEvents.foldl accept b).objects =
      m.entities.mapValues fun n e => .ofEntity n (e.description.getD "") := by
  rw [Model.entityEvents, objects_foldl_entities, h]
  have hnodup := (m.entities.mapValues fun n e =>
    Object.ofEntity n (e.description.getD "")).nodup_keys
  exact OrderedMap.ext_entries (OrderedMap.empty.entries_insertAll hnodup)

/-- The parse of a model by a fresh builder makes the objects of its entities. -/
theorem find?_parsed {t : ValidationTables} {options : SchemaOptions} {start : Builder}
    (hstart : ofOptions t options = .ok start) {m : Model} {n : String} {e : Entity}
    (he : m.find? n = some e) :
    (m.events.foldl accept start).objects.find? n = some (m.object t start.ns n e) := by
  obtain ⟨hvalidator, hobjects⟩ := of_ofOptions hstart
  obtain ⟨hns, htables⟩ := start.foldl_options m.entityEvents
  have htables : (m.entityEvents.foldl accept start).validator.tables = t := by
    rw [htables, hvalidator]
    rfl
  have hmodel : (m.entityEvents.foldl accept start).validator.model = (m.declared t).model := by
    rw [model_foldl, hvalidator]
    rfl
  have hdeclared : (m.entityEvents.foldl accept start).objects.find? n =
      some (.ofEntity n (e.description.getD "")) := by
    have hfind : m.entities.find? n = some e := he
    rw [objects_foldl_entityEvents hobjects, OrderedMap.find?_mapValues, hfind]
    rfl
  have hnames : (m.entityEvents.foldl accept start).validator.model.names = m.names := by
    rw [hmodel, m.names_declared t]
  have helements := (m.entityEvents.foldl accept start).find?_foldl_elements hnames
    ((m.awaits_declared t).of_model_eq hmodel) n
  rw [hns, htables, hdeclared, m.any_elementEvents, m.filterMap_field? t start.ns he] at helements
  rw [Model.events_eq, List.foldl_append, List.foldl_append]
  exact helements

/-- The parse of a model by a fresh builder makes the objects of its entities, in declared
order. -/
theorem objects_parsed {t : ValidationTables} {options : SchemaOptions} {start : Builder}
    (hstart : ofOptions t options = .ok start) (m : Model) :
    (m.events.foldl accept start).objects = m.entities.mapValues (m.object t start.ns) := by
  have hkeys := (objects_foldl_events (of_ofOptions hstart).2 m).1
  refine OrderedMap.ext_find? ?_ fun n hn => ?_
  · rw [hkeys, OrderedMap.keys_mapValues]
    rfl
  · obtain ⟨e, he⟩ := m.entities.exists_find?_of_mem (hkeys ▸ hn : n ∈ m.names)
    rw [find?_parsed hstart he, OrderedMap.find?_mapValues, he]
    rfl

end Schema.Builder

/-! ## What objects say of one another -/

/-- The type and the getter of a field, by the object that it leads to: the type of the object, a
list of it, or its connection. -/
def Schema.Field.LeadsTo (f : Schema.Field) (target : Schema.Object) : Cardinality → Prop
  | .single => f.graphqlType = target.typeName ∧ f.getter = none
  | .list => f.graphqlType = "new GraphQLList(" ++ target.typeName ++ ")" ∧ f.getter = none
  | .connection => target.connection = some f.graphqlType ∧ f.getter = some target.getterName

namespace Schema.Builder

/-- The field of an attribute, typed as the attribute was normalized. -/
structure AttributeField (b : Builder) (n : String) (declared : String × AttributeDecl)
    (f : Field) : Prop where
  name : f.name = declared.1
  kind : f.kind = .plain
  description : f.description = declared.2.config.description.getD ""
  getter : f.getter = none
  type : ∃ c, b.validator.model.attribute? n declared.1 = some c ∧
    f.graphqlType = scalarType c.typeName

/-- The field of a reference, which leads to the object of its target. -/
structure ReferenceField (b : Builder) (n : String) (declared : String × ReferenceDecl)
    (f : Field) : Prop where
  name : f.name = declared.1
  description : f.description = declared.2.config.description.getD ""
  target : ∃ c target, b.validator.model.reference? n declared.1 = some c ∧
    declared.2.config.targetName? = some c.target ∧
    c.annotations = declared.2.config.annotations ∧ b.objects.find? c.target = some target ∧
    f.kind = .reference (c.cardinality b.ns) ∧ f.LeadsTo target (c.cardinality b.ns)

/-- The object of an entity of a model: a field for each attribute that is declared, then one for
each reference to an entity of the model, and a connection if some reference to it is paged. -/
structure ObjectOf (b : Builder) (m : Model) (n : String) (e : Entity) (o : Object) : Prop where
  name : o.name = n
  className : o.className = Naming.className n
  typeName : o.typeName = Naming.typeName n
  getterName : o.getterName = Naming.getterName n
  description : o.description = e.description.getD ""
  fields : ∃ attributes references, o.fields = attributes ++ references ∧
    List.Forall₂ (b.AttributeField n) e.attributes.entries attributes ∧
    List.Forall₂ (b.ReferenceField n) (e.references.entries.filter fun r =>
      r.2.config.targetName?.any fun target => target ≠ "" ∧ target ∈ m.names) references
  connection : o.connection.isSome = true ↔ ∃ source r c,
    b.validator.model.reference? source r = some c ∧ c.cardinality b.ns = .connection ∧
      c.target = n
  connectionName : ∀ s, o.connection = some s → s = Naming.connectionName n

end Schema.Builder

/-- A reference is known if its target is a text that is not empty, the name of an entity. -/
theorem ReferenceConfig.isSome_known? (c : ReferenceConfig) (names : List String) :
    (c.known? names).isSome =
      c.targetName?.any fun target => target ≠ "" ∧ target ∈ names := by
  rw [known?, complete?_eq]
  cases c.targetName? with
  | none => rfl
  | some target =>
    by_cases hempty : target = ""
    · simp [Option.filter, hempty]
    · by_cases hknown : target ∈ names <;> simp [Option.filter, hempty, hknown]

/-- The entries that a function keeps are those of a filter, one by one. -/
theorem forall₂_filter_filterMap {α β : Type} {R : α → β → Prop} {p : α → Bool}
    {f : α → Option β} {as : List α} (hp : ∀ a ∈ as, (f a).isSome = p a)
    (hR : ∀ a ∈ as, ∀ b, f a = some b → R a b) :
    List.Forall₂ R (as.filter p) (as.filterMap f) := by
  induction as with
  | nil => exact .nil
  | cons a as ih =>
    have hrest := ih (fun a' h => hp a' (List.mem_cons_of_mem _ h))
      fun a' h => hR a' (List.mem_cons_of_mem _ h)
    have hhead := hp a (List.mem_cons_self ..)
    cases hb : f a with
    | none => simpa [hb, ← hhead] using hrest
    | some b => simpa [hb, ← hhead] using ⟨hR a (List.mem_cons_self ..) b hb, hrest⟩

namespace Model

variable (t : ValidationTables) (m : Model)

/-- A declared attribute is there with its defaults. -/
theorem attribute?_normalizedModel {n a : String} {e : Entity} {d : AttributeDecl}
    (he : m.find? n = some e) (hd : e.attributes.find? a = some d) :
    (t.normalizedModel m).attribute? n a = some (t.complete d.config) := by
  have hentity : (t.normalizedModel m).find? n = some (t.normalized e) := by
    have hfind : m.entities.find? n = some e := he
    simp [NormalizedModel.find?, ValidationTables.normalizedModel, hfind]
  have hattribute : (t.normalized e).attributes.find? a = some (t.complete d.config) := by
    refine (OrderedMap.mem_entries _).1 (List.mem_append_right _ ?_)
    exact List.mem_map_of_mem (e.attributes.mem_entries.2 hd)
  rw [NormalizedModel.attribute?, hentity, Option.bind_some, hattribute]

/-- An entity of the model is paged by the references that the normalized model has to it. -/
theorem pages_iff (ns : String) {n : String} (hn : n ∈ m.names) :
    m.pages ns n = true ↔ ∃ source r c, (t.normalizedModel m).reference? source r = some c ∧
      c.cardinality ns = .connection ∧ c.target = n := by
  simp only [pages, List.any_eq_true, Option.any_eq_true, NormalizedReference.pages,
    decide_eq_true_eq, mem_referenceEvents, reference?_normalizedModel]
  constructor
  · rintro ⟨_, ⟨source, e, r, d, he, hd, rfl⟩, c, hc, hkind, htarget⟩
    obtain ⟨hc, -⟩ := ReferenceConfig.known?_eq_some.1 hc
    exact ⟨source, r, c, ⟨e, d, he, hd, hc⟩, hkind, htarget⟩
  · rintro ⟨source, r, c, ⟨e, d, he, hd, hc⟩, hkind, htarget⟩
    exact ⟨_, ⟨source, e, r, d, he, hd, rfl⟩, c,
      ReferenceConfig.known?_eq_some.2 ⟨hc, htarget ▸ hn⟩, hkind, htarget⟩

end Model

/-! ## The objects of a model -/

namespace Schema.Builder

variable {t : ValidationTables} {b : Builder} {m : Model} {n : String} {e : Entity}

/-- The declared attributes of an entity have their fields. -/
theorem forall₂_attributeField (hmodel : b.validator.model = t.normalizedModel m)
    (he : m.find? n = some e) :
    List.Forall₂ (b.AttributeField n) e.attributes.entries
      (e.attributes.entries.map fun a => .ofAttribute a.1 (t.complete a.2.config).typeName
        (a.2.config.description.getD "")) := by
  refine List.forall₂_map_right_iff.2 (List.forall₂_same.2 fun a ha => ?_)
  have hattribute := m.attribute?_normalizedModel t he (e.attributes.mem_entries.1 ha)
  exact ⟨rfl, rfl, rfl, rfl, _, hmodel ▸ hattribute, rfl⟩

/-- A reference that is known has a field, which leads to an object of the model. -/
theorem referenceField_of_known (hmodel : b.validator.model = t.normalizedModel m)
    (hobjects : b.objects = m.entities.mapValues (m.object t b.ns)) (he : m.find? n = some e)
    {r : String × ReferenceDecl} (hr : r ∈ e.references.entries) {c : NormalizedReference}
    (hc : r.2.config.known? m.names = some c) :
    b.ReferenceField n r (.ofReference r.1 c.target c.description (c.cardinality b.ns)) := by
  obtain ⟨hcomplete, hknown⟩ := ReferenceConfig.known?_eq_some.1 hc
  obtain ⟨htarget, hdescription, hannotations⟩ := ReferenceConfig.of_complete? hcomplete
  have hreference : b.validator.model.reference? n r.1 = some c := by
    rw [hmodel, Model.reference?_normalizedModel]
    exact ⟨e, r.2, he, e.references.mem_entries.1 hr, hcomplete⟩
  obtain ⟨e', he'⟩ := m.entities.exists_find?_of_mem hknown
  have hobject : b.objects.find? c.target = some (m.object t b.ns c.target e') := by
    rw [hobjects, OrderedMap.find?_mapValues, he']
    rfl
  refine ⟨?_, ?_, c, _, hreference, htarget, hannotations, hobject, ?_, ?_⟩
  · cases c.cardinality b.ns <;> rfl
  · rw [← hdescription]
    cases c.cardinality b.ns <;> rfl
  · cases c.cardinality b.ns <;> rfl
  · cases hkind : c.cardinality b.ns with
    | single => exact ⟨rfl, rfl⟩
    | list => exact ⟨rfl, rfl⟩
    | connection =>
      have hpaged : m.pages b.ns c.target = true :=
        (m.pages_iff t b.ns hknown).2 ⟨n, r.1, c, hmodel ▸ hreference, hkind, rfl⟩
      exact ⟨if_pos hpaged, rfl⟩

/-- The objects of a model say of one another what they should. -/
theorem objectOf_object (hmodel : b.validator.model = t.normalizedModel m)
    (hobjects : b.objects = m.entities.mapValues (m.object t b.ns)) (he : m.find? n = some e) :
    b.ObjectOf m n e (m.object t b.ns n e) where
  name := rfl
  className := rfl
  typeName := rfl
  getterName := rfl
  description := rfl
  fields := by
    refine ⟨_, _, List.nil_append _, forall₂_attributeField hmodel he, ?_⟩
    refine forall₂_filter_filterMap (fun r _ => ?_) fun r hr f hf => ?_
    · rw [Option.isSome_map, ReferenceConfig.isSome_known?]
    · obtain ⟨c, hc, rfl⟩ := Option.map_eq_some_iff.1 hf
      exact referenceField_of_known hmodel hobjects he hr hc
  connection := by
    rw [hmodel, ← m.pages_iff t b.ns (OrderedMap.mem_keys_of_find? he)]
    cases hpaged : m.pages b.ns n <;>
      simp [Model.object, Object.extend, Object.ofEntity, hpaged]
  connectionName := by
    intro s hs
    cases hpaged : m.pages b.ns n <;>
      simp [Model.object, Object.extend, Object.ofEntity, hpaged] at hs
    exact hs.symm

end Schema.Builder

/-! ## Main statement -/

/-- The parse of a model without empty names by a fresh builder makes an object of each entity, in
declared order: its fields are those of the attributes that the entity declares, then those of its
references to entities of the model, each typed by the object that it leads to, and an object has a
connection exactly if some reference to its entity is paged. -/
theorem parseWith_objects {t : ValidationTables} {options : SchemaOptions} {start : Schema.Builder}
    (hstart : Schema.Builder.ofOptions t options = .ok start) {m : Model} (h : m.Named) :
    ∃ b, m.parseWith start = (b, none) ∧ b.ns = options.ns ∧
      List.Forall₂ (fun declared o => o.1 = declared.1 ∧ b.ObjectOf m declared.1 declared.2 o.2)
        m.entities.entries b.objects.entries := by
  have hparse : m.parseWith start = (m.events.foldl Schema.Builder.accept start, none) :=
    feed_eq_foldl Schema.Builder.handle_eq_ok h.nameError?_eq_none start
  obtain ⟨hvalidator, -⟩ := Schema.Builder.of_ofOptions hstart
  obtain ⟨hns, -⟩ := start.foldl_options m.events
  have hmodel : (m.events.foldl Schema.Builder.accept start).validator.model =
      t.normalizedModel m := by
    rw [Schema.Builder.model_foldl, hvalidator, Model.foldl_events, Model.model_validated]
  have hobjects := Schema.Builder.objects_parsed hstart m
  refine ⟨_, hparse, hns.trans (Schema.Builder.ns_ofOptions hstart), ?_⟩
  · generalize m.events.foldl Schema.Builder.accept start = b at *
    rw [← hns] at hobjects
    rw [hobjects]
    refine List.forall₂_map_right_iff.2 (List.forall₂_same.2 fun e he => ⟨rfl, ?_⟩)
    exact Schema.Builder.objectOf_object hmodel hobjects (m.entities.mem_entries.1 he)

/-- A person of whom the age is declared, and friends to page through. The home of the person is no
entity, so it is no field. -/
theorem parseWith_objects_of_person :
    let paged : Annotation := .ofParts none (some .connection)
    let friends := ReferenceConfig.withAnnotation (.ofTarget (.text "Person")) "graphql" paged
    let aged := Entity.empty.withAttribute "age" (.shorthand (.text "number"))
    let person := (aged.withReference "friends" (.full friends)).withReference "home"
      (.shorthand (.text "House"))
    let m := Model.empty.insert "Person" person
    let options := { SchemaOptions.builtIn with template := some "" }
    m.Named ∧ ∃ start b o age field, Schema.Builder.ofOptions .builtIn options = .ok start ∧
      m.parseWith start = (b, none) ∧ b.objects.entries = [("Person", o)] ∧
      o.fields = [age, field] ∧ age.kind = .plain ∧ field.kind = .reference .connection ∧
      field.graphqlType = "PersonConnection" ∧ field.getter = some "getPerson" ∧
      o.connection = some "PersonConnection" := by
  intro paged friends aged person m options
  have hnamed : m.Named := by decide
  have hstart : Schema.Builder.ofOptions .builtIn options =
      .ok ⟨.ofTables .builtIn, "", "graphql", "__id_unique", .empty⟩ := rfl
  obtain ⟨b, hparse, hns, hobjects⟩ := parseWith_objects hstart hnamed
  have hentries : m.entities.entries = [("Person", person)] := rfl
  have hage : person.attributes.entries = [("age", .shorthand (.text "number"))] := rfl
  have hknown : (person.references.entries.filter fun r => r.2.config.targetName?.any
      fun target => target ≠ "" ∧ target ∈ m.names) = [("friends", .full friends)] := by decide
  rw [hentries] at hobjects
  generalize hb : b.objects.entries = objects at hobjects
  obtain _ | @⟨_, ⟨n, o⟩, _, _, ⟨rfl, hobject⟩, ⟨⟩⟩ := hobjects
  obtain ⟨attributes, references, hfields, hattributes, hreferences⟩ := hobject.fields
  rw [hage] at hattributes
  rw [hknown] at hreferences
  obtain _ | @⟨_, age, _, _, hage, ⟨⟩⟩ := hattributes
  obtain _ | @⟨_, field, _, _, hfield, ⟨⟩⟩ := hreferences
  obtain ⟨c, target, -, htarget, hannotations, hfind, hkind, hleads⟩ := hfield.target
  have hpaged : c.cardinality b.ns = .connection := by
    rw [NormalizedReference.cardinality, hannotations, hns]
    rfl
  obtain rfl : o = target := by
    have htarget : "Person" = c.target := Option.some.inj htarget
    simpa [OrderedMap.find?, OrderedMap.lookupIn, hb, ← htarget] using hfind
  rw [hpaged] at hkind hleads
  obtain ⟨hconnection, hgetter⟩ := hleads
  have hnames : Naming.connectionName "Person" = "PersonConnection" ∧
      Naming.getterName "Person" = "getPerson" := by
    decide +kernel
  have htype : field.graphqlType = "PersonConnection" :=
    (hobject.connectionName _ hconnection).trans hnames.1
  rw [hobject.getterName, hnames.2] at hgetter
  rw [htype] at hconnection
  exact ⟨hnamed, _, b, o, age, field, hstart, hparse, hb, hfields, hage.kind, hkind, htype,
    hgetter, hconnection⟩

end EntityModel
