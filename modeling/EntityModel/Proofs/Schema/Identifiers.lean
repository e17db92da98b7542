import EntityModel.Proofs.Naming
import EntityModel.Proofs.Schema.Connections
import Mathlib.Data.List.TakeWhile

/-!
# The identifiers of a schema

The bundled template imports or declares the class, the getter, the type and the connection of each
object, and in the type of an object a field for its id and one for each element of its entity. All
of them are converted names (`Object.OfElements`), so different names may become one identifier. The
identifiers at top level are distinct exactly if those that may meet do not (`Naming.Apart`), and
the fields of an object exactly if the converted names of the elements are, and none is the id
(`identifiers_distinct_iff`).
-/

namespace EntityModel

namespace Event

/-- The name of the element of an entity that an event declares. -/
def elementOf? (n : String) : Event → Option String
  | .declareAttribute entity name _ | .declareReference entity name _ =>
    if entity = n then some name else none
  | _ => none

/-- The names of the elements of an entity that were declared since it was declared itself. -/
def elementsSince (n : String) (evs : List Event) : List String :=
  evs.foldl (fun names ev => if n ∈ ev.declares then [] else names ++ (ev.elementOf? n).toList) []

variable {n : String} {evs : List Event}

theorem elementsSince_concat (ev : Event) :
    elementsSince n (evs ++ [ev]) =
      if n ∈ ev.declares then [] else elementsSince n evs ++ (ev.elementOf? n).toList := by
  rw [elementsSince, List.foldl_concat]
  rfl

/-- Elements that are declared come behind those that were. -/
theorem elementsSince_append (before : List Event) (h : ∀ ev ∈ evs, n ∉ ev.declares) :
    elementsSince n (before ++ evs) = elementsSince n before ++ evs.filterMap (elementOf? n) := by
  induction evs using List.reverseRecOn with
  | nil => simp
  | append_singleton evs ev ih =>
    obtain ⟨hevs, hev⟩ := List.forall_mem_append.1 h
    rw [← List.append_assoc, elementsSince_concat, if_neg (hev ev (List.mem_singleton_self ev)),
      ih hevs, List.filterMap_append, List.append_assoc]
    cases hname : ev.elementOf? n <;> simp [hname]

/-- Events that are not about elements declare none. -/
theorem elementsSince_eq_nil (h : ∀ ev ∈ evs, ev.elementOf? n = none) :
    elementsSince n evs = [] := by
  induction evs using List.reverseRecOn with
  | nil => rfl
  | append_singleton evs ev ih =>
    obtain ⟨hevs, hev⟩ := List.forall_mem_append.1 h
    rw [elementsSince_concat, ih hevs, hev ev (List.mem_singleton_self ev)]
    exact ite_self _

/-- An element of an entity is declared by an event about it. -/
theorem elementOf?_eq_none {ev : Event} (h : ev.entity? ≠ some n) : ev.elementOf? n = none := by
  cases ev with
  | declareAttribute entity name c | declareReference entity name c =>
    exact if_neg fun heq => h (congrArg some heq)
  | _ => rfl

theorem filterMap_elementOf? (evs : List Event) :
    evs.filterMap (elementOf? n) =
      (evs.filter fun ev => ev.entity? = some n).filterMap (elementOf? n) := by
  rw [List.filterMap_filter]
  refine List.filterMap_congr fun ev _ => ?_
  split
  · rfl
  · next h => exact elementOf?_eq_none (by simpa using h)

end Event

/-- The elements of an entity that the events of a model declare are its attributes and its
references. -/
theorem Model.elementsSince_events {m : Model} {n : String} {e : Entity} (he : m.find? n = some e) :
    Event.elementsSince n m.events = e.attributes.keys ++ e.references.keys := by
  have hentities : Event.elementsSince n m.entityEvents = [] := by
    refine Event.elementsSince_eq_nil fun ev hev => ?_
    obtain ⟨_, _, -, rfl⟩ := mem_entityEvents.1 hev
    rfl
  have hdeclares : ∀ ev ∈ m.elementEvents ++ [.finish], n ∉ ev.declares := by
    intro ev hev
    rcases List.mem_append.1 hev with hev | hev
    · rcases List.mem_append.1 hev with hev | hev
      · obtain ⟨_, _, _, _, -, -, rfl⟩ := mem_attributeEvents.1 hev
        exact List.not_mem_nil
      · obtain ⟨_, _, _, _, -, -, rfl⟩ := mem_referenceEvents.1 hev
        exact List.not_mem_nil
    · rw [List.mem_singleton.1 hev]
      exact List.not_mem_nil
  have hattributes : (e.attributeEvents n).filterMap (Event.elementOf? n) = e.attributes.keys := by
    simp [Entity.attributeEvents, List.filterMap_map, Event.elementOf?, Function.comp_def,
      OrderedMap.keys]
  have hreferences : (e.referenceEvents n).filterMap (Event.elementOf? n) = e.references.keys := by
    simp [Entity.referenceEvents, List.filterMap_map, Event.elementOf?, Function.comp_def,
      OrderedMap.keys]
  rw [events_eq, List.append_assoc, Event.elementsSince_append _ hdeclares, hentities,
    List.nil_append, List.filterMap_append, elementEvents, List.filterMap_append,
    Event.filterMap_elementOf? m.attributeEvents, filter_attributeEvents he, hattributes,
    Event.filterMap_elementOf? m.referenceEvents, filter_referenceEvents he, hreferences]
  exact List.append_nil _

namespace Schema

namespace Object

/-- The names that are imported or declared at top level for an object. -/
def topLevelNames (o : Object) : List String :=
  [o.className, o.getterName, o.typeName] ++ o.connection.toList

/-- The names of the fields in the type of an object. -/
def fieldNames (o : Object) : List String := "id" :: o.fields.map fun f => camelCase f.name

/-- The object has the identifiers of an entity and a field for each of its elements. -/
structure OfElements (o : Object) (n : String) (elements : List String) : Prop where
  className : o.className = Naming.className n
  getterName : o.getterName = Naming.getterName n
  typeName : o.typeName = Naming.typeName n
  fields : o.fields.map Field.name = elements

/-- The kinds of identifiers that an object has. -/
def kinds (o : Object) : List Naming.Kind :=
  [.ofClass, .ofGetter, .ofType] ++ if o.connection.isSome then [.ofConnection] else []

theorem mem_kinds {o : Object} {k : Naming.Kind} :
    k ∈ o.kinds ↔ (k = .ofConnection → o.connection.isSome = true) := by
  cases h : o.connection.isSome <;> cases k <;> simp [kinds, h]

theorem nodup_kinds (o : Object) : o.kinds.Nodup := by
  cases h : o.connection.isSome <;> simp [kinds, h]

section
variable {o : Object} {n : String} {elements : List String}

/-- The names of the fields are the id and the converted names of the elements. -/
theorem OfElements.fieldNames_eq (h : o.OfElements n elements) :
    o.fieldNames = "id" :: elements.map camelCase := by
  rw [← h.fields, List.map_map]
  rfl

/-- The names at top level are the identifiers of the entity, each of its kind. -/
theorem OfElements.topLevelNames_eq (h : o.OfElements n elements)
    (hconnection : ∀ c, o.connection = some c → Naming.connectionName n = c) :
    o.topLevelNames = o.kinds.map fun k => k.identifier n := by
  rw [topLevelNames, h.className, h.getterName, h.typeName]
  cases hc : o.connection with
  | none => simp [kinds, hc, Naming.Kind.identifier]
  | some c => simp [kinds, hc, Naming.Kind.identifier, hconnection c hc]

end

end Object

namespace Builder

/-- In a valid model, the field that an event stands for has the name of the element. -/
theorem map_name_field? {b : Builder} (h : b.validator.errors.WellFiled) {ev : Event}
    (hvalid : (b.accept ev).validator.isValid = true) (t : ValidationTables) (ns n : String) :
    (if ev.entity? = some n then (ev.field? t ns ev.complete?).toList else []).map Field.name =
      (ev.elementOf? n).toList := by
  cases ev with
  | declareAttribute entity name c =>
    by_cases hn : entity = n <;>
      simp [Event.entity?, Event.field?, Event.elementOf?, Field.ofAttribute, hn]
  | declareReference entity name c =>
    obtain ⟨r, hr, -⟩ := known_of_valid h hvalid
    have hname : (Field.ofReference name r.target r.description
        (r.cardinality ns)).name = name := by
      cases r.cardinality ns <;> rfl
    by_cases hn : entity = n <;>
      simp [Event.entity?, Event.field?, Event.complete?, Event.elementOf?, hr, hname, hn]
  | declareEntity name e => simp [Event.field?, Event.elementOf?]
  | finish => rfl

/-- In a valid model, each object has a field for each element that was declared since its entity
was. -/
theorem Covered.ofElements_foldl {b : Builder} (hb : b.Covered) (hobjects : b.objects = .empty)
    {evs : List Event} (hvalid : (evs.foldl Builder.accept b).validator.isValid = true) {n : String}
    {o : Object} (ho : (evs.foldl Builder.accept b).objects.find? n = some o) :
    o.OfElements n (Event.elementsSince n evs) := by
  induction evs using List.reverseRecOn generalizing o with
  | nil =>
    rw [List.foldl_nil, hobjects] at ho
    cases ho
  | append_singleton evs ev ih =>
    have hbefore := hb.isValid_foldl hvalid
    rw [List.foldl_concat] at hvalid ho
    have hfiled := (hb.foldl_accept evs).wellFiled
    rw [Event.elementsSince_concat]
    rcases object_of_accept hfiled hvalid ho with ⟨e, rfl, rfl⟩ | ⟨hn, o', ho', rfl⟩
    · have hdeclared : n ∈ (Event.declareEntity n e).declares := List.mem_singleton_self n
      rw [if_pos hdeclared]
      exact ⟨rfl, rfl, rfl, rfl⟩
    · rw [if_neg hn]
      obtain ⟨hclass, hgetter, htype, hfields⟩ := ih hbefore ho'
      refine ⟨hclass, hgetter, htype, ?_⟩
      rw [Object.extend, List.map_append, hfields, map_name_field? hfiled hvalid]

end Builder

/-! ## Identifiers at top level -/

/-- The identifiers of objects, each by its kind and entity, are distinct exactly if those that may
meet do not. -/
theorem nodup_topLevelNames_iff {objects : List Object} {names : List String}
    {paged : String → Prop} (hnames : (objects.map Object.name).Perm names) (hnodup : names.Nodup)
    (htop : ∀ o ∈ objects, o.topLevelNames = o.kinds.map fun k => k.identifier o.name)
    (hpaged : ∀ o ∈ objects, o.connection.isSome = true ↔ paged o.name) :
    (objects.flatMap Object.topLevelNames).Nodup ↔ Naming.Apart names paged := by
  let pairs := objects.flatMap fun o => o.kinds.map fun k => (k, o.name)
  have hmap : objects.flatMap Object.topLevelNames = pairs.map fun p => p.1.identifier p.2 := by
    rw [List.map_flatMap]
    refine List.flatMap_congr fun o ho => ?_
    rw [htop o ho, List.map_map]
    rfl
  have hmem : ∀ k n, (k, n) ∈ pairs ↔ Naming.InUse names paged k n := by
    intro k n
    simp only [pairs, List.mem_flatMap, List.mem_map, Prod.mk.injEq, Object.mem_kinds]
    constructor
    · rintro ⟨o, ho, _, hk, rfl, rfl⟩
      exact ⟨hnames.subset (List.mem_map_of_mem ho), fun h => (hpaged o ho).1 (hk h)⟩
    · rintro ⟨hn, hk⟩
      obtain ⟨o, ho, rfl⟩ := List.mem_map.1 (hnames.symm.subset hn)
      exact ⟨o, ho, k, fun h => (hpaged o ho).2 (hk h), rfl, rfl⟩
  have hpairs : pairs.Nodup := by
    refine List.nodup_flatMap.2 ⟨fun o _ => ?_, ?_⟩
    · exact o.nodup_kinds.map fun _ _ h => (Prod.mk.inj h).1
    · refine (List.pairwise_map.1 (hnames.symm.nodup hnodup)).imp fun hne p hp hp' => ?_
      obtain ⟨_, -, rfl⟩ := List.mem_map.1 hp
      obtain ⟨_, -, heq⟩ := List.mem_map.1 hp'
      exact hne (Prod.mk.inj heq).2.symm
  rw [hmap, List.nodup_map_iff_inj_on hpairs]
  constructor
  · intro h
    refine .of_identifier fun k a ha k' b hb heq => ?_
    exact Prod.mk.inj (h (k, a) ((hmem k a).2 ha) (k', b) ((hmem k' b).2 hb) heq)
  · rintro h ⟨k, a⟩ ha ⟨k', b⟩ hb heq
    obtain ⟨rfl, rfl⟩ := h.eq_of_identifier ((hmem k a).1 ha) ((hmem k' b).1 hb) heq
    rfl

end Schema

/-- What a parse delivers declares each entity once. -/
theorem Model.nodup_declares_delivered (m : Model) :
    (m.delivered.flatMap Event.declares).Nodup := by
  have hnames : (m.events.flatMap Event.declares).Nodup :=
    m.flatMap_declares ▸ m.entities.nodup_keys
  obtain ⟨rest, hrest⟩ : m.delivered <+: m.events := List.takeWhile_prefix _
  rw [← hrest, List.flatMap_append] at hnames
  exact (List.nodup_append.1 hnames).1

/-- The parse of a named model delivers all its events. -/
theorem Model.Named.delivered_eq {m : Model} (h : m.Named) : m.delivered = m.events :=
  List.takeWhile_eq_self_iff.2 fun ev hev => by simp [h.nameError?_eq_none ev hev]

/-- A parse hands what it delivers to a builder, in turn. -/
theorem Schema.Builder.parseWith_fst (b : Builder) (m : Model) :
    (m.parseWith b).1 = m.delivered.foldl accept b :=
  congrArg Prod.fst (feed_eq_takeWhile handle_eq_ok m.events b)

/-- The objects of a schema that is not refused, after the parse of a model: one for each entity
that was declared, with the identifiers of the entity, a field for each of its elements, and a
connection if some entity was connected to it. -/
theorem Schema.Builder.objects_of_parse {t : ValidationTables} {options : SchemaOptions}
    {start : Builder} (hstart : ofOptions t options = .ok start) (m : Model) {objects : List Object}
    (h : (m.parseWith start).1.orderedObjects = .ok objects) :
    (objects.map Object.name).Perm (m.delivered.flatMap Event.declares) ∧ ∀ o ∈ objects,
      o.OfElements o.name (Event.elementsSince o.name m.delivered) ∧
      ∀ c, o.connection = some c ↔
        (∃ ev ∈ m.delivered, ∃ s, ev.Connects options.ns s o.name) ∧
          Naming.connectionName o.name = c := by
  rw [parseWith_fst] at h
  have hstarted : start.Covered := .of_ofOptions hstart
  have hempty : start.objects = .empty := (of_ofOptions hstart).2
  have hcovered := hstarted.foldl_accept m.delivered
  obtain ⟨hvalid, order, -, horder, hmem, hobjects⟩ := hcovered.of_orderedObjects h
  have hconnected := (Connected.of_empty hempty).foldl hstarted hvalid
  have hnodup := m.nodup_declares_delivered
  constructor
  · have hkeys : (m.delivered.foldl accept start).objects.keys =
        m.delivered.flatMap Event.declares := by
      rw [keys_foldl, hempty]
      exact DependencyGraph.foldl_addName_of_nodup hnodup
    rw [hobjects, (hcovered.wellNamed.objects_of_order fun n hn => (hmem n).1 hn).1, ← hkeys]
    exact (List.perm_ext_iff_of_nodup horder (OrderedMap.nodup_keys _)).2 hmem
  · intro o ho
    obtain ⟨n, hn⟩ := (hcovered.mem_orderedObjects h).1 ho
    obtain rfl := hcovered.wellNamed n o hn
    refine ⟨hstarted.ofElements_foldl hempty hvalid hn, fun c => ?_⟩
    rw [hconnected.connection o.name o hn c, (start.foldl_options m.delivered).1,
      ← ns_ofOptions hstart]
    refine and_congr_left fun _ => ⟨Event.Since.exists_mem, ?_⟩
    rintro ⟨ev, hev, s, hconnects⟩
    exact hstarted.since_of_mem hempty hvalid hnodup hev hconnects

/-! ## Main statement -/

/-- After the parse of a model, also a stopped one, of which the schema is not refused: the names at
top level are distinct exactly if those do not meet that may, classes with classes, types and
connections, and getters with types. In ASCII, the getters, types and connections of entities with
distinct classes are distinct. The fields of an object are distinct exactly if the converted names
of the elements of its entity are distinct and none of them is the id. -/
theorem identifiers_distinct_iff {t : ValidationTables} {options : SchemaOptions}
    {start : Schema.Builder} (hstart : Schema.Builder.ofOptions t options = .ok start) (m : Model)
    {objects : List Schema.Object} :
    let b := (m.parseWith start).1
    let names := m.delivered.flatMap Event.declares
    let paged := fun n => ∃ ev ∈ m.delivered, ∃ s, ev.Connects options.ns s n
    b.orderedObjects = .ok objects →
      ((objects.flatMap Schema.Object.topLevelNames).Nodup ↔ Naming.Apart names paged) ∧
      ((∀ n ∈ names, Naming.IsAscii n) → Set.InjOn Naming.className {n | n ∈ names} →
        Set.InjOn Naming.getterName {n | n ∈ names} ∧ Set.InjOn Naming.typeName {n | n ∈ names} ∧
          Set.InjOn Naming.connectionName {n | n ∈ names}) ∧
      (∀ o ∈ objects, let fields := (Event.elementsSince o.name m.delivered).map camelCase
        o.fieldNames.Nodup ↔ fields.Nodup ∧ "id" ∉ fields) ∧
      (m.Named → m.delivered = m.events ∧ names = m.names ∧ ∀ n e, m.find? n = some e →
        Event.elementsSince n m.delivered = e.attributes.keys ++ e.references.keys) := by
  intro b names paged hb
  obtain ⟨hnames, hobjects⟩ := Schema.Builder.objects_of_parse hstart m hb
  refine ⟨?_, Naming.injOn_of_className, fun o ho => ?_, fun hnamed => ?_⟩
  · refine Schema.nodup_topLevelNames_iff hnames m.nodup_declares_delivered ?_ ?_
    · intro o ho
      obtain ⟨helements, hconnection⟩ := hobjects o ho
      exact helements.topLevelNames_eq fun c hc => ((hconnection c).1 hc).2
    · intro o ho
      obtain ⟨-, hconnection⟩ := hobjects o ho
      simp [Option.isSome_iff_exists, hconnection, paged]
  · rw [(hobjects o ho).1.fieldNames_eq, List.nodup_cons]
    exact and_comm
  · refine ⟨hnamed.delivered_eq, ?_, fun n e he => ?_⟩
    · exact (congrArg _ hnamed.delivered_eq).trans m.flatMap_declares
    · rw [hnamed.delivered_eq, Model.elementsSince_events he]

/-- A role pages through accounts: nothing meets, and its fields are distinct. -/
theorem identifiers_distinct_of_role :
    let key := AttributeDecl.full (AttributeConfig.empty.withFlag "in_key_hash" (.bool true))
    let keyed := Entity.empty.withAttribute "key" key
    let paged : Annotation := .ofParts none (some .connection)
    let accounts :=
      ReferenceConfig.withAnnotation (.ofTarget (.text "account")) "graphql" paged
    let m := (Model.empty.insert "user_role" (keyed.withReference "all_accounts"
      (.full accounts))).insert "account" keyed
    let start : Schema.Builder := ⟨.ofTables .builtIn, "", "graphql", "__id_unique", .empty⟩
    Schema.Builder.ofOptions .builtIn { SchemaOptions.builtIn with template := some "" } =
        .ok start ∧
      ∃ objects, (m.parseWith start).1.orderedObjects = .ok objects ∧
        (objects.flatMap Schema.Object.topLevelNames).Nodup ∧
        ∀ o ∈ objects, o.fieldNames.Nodup := by
  intro key keyed paged accounts m start
  have hstart : Schema.Builder.ofOptions .builtIn
      { SchemaOptions.builtIn with template := some "" } = .ok start := rfl
  have hrun : ((m.parseWith start).1.orderedObjects.toOption.map
      (List.map Schema.Object.name)) = some ["account", "user_role"] := by
    decide +kernel
  cases hobjects : (m.parseWith start).1.orderedObjects with
  | error e => simp [hobjects, Except.toOption] at hrun
  | ok objects =>
    have hnames : objects.map Schema.Object.name = ["account", "user_role"] := by
      simpa [hobjects, Except.toOption] using hrun
    obtain ⟨htop, hascii, hfields, -⟩ := identifiers_distinct_iff hstart m hobjects
    have hdeclared : m.delivered.flatMap Event.declares = ["user_role", "account"] := by
      decide +kernel
    rw [hdeclared] at htop hascii
    have hclasses : ∀ a ∈ ["user_role", "account"], ∀ b ∈ ["user_role", "account"],
        Naming.className a = Naming.className b → a = b := by
      decide +kernel
    have hapart : ∀ a ∈ ["user_role", "account"], ∀ b ∈ ["user_role", "account"],
        Naming.className a ≠ Naming.typeName b ∧ Naming.className a ≠ Naming.connectionName b ∧
          Naming.getterName a ≠ Naming.typeName b := by
      decide +kernel
    have hinj : Set.InjOn Naming.className {n | n ∈ ["user_role", "account"]} :=
      fun a ha b hb => hclasses a ha b hb
    obtain ⟨hgetters, htypes, hconnections⟩ := hascii (by decide) hinj
    have helements : ∀ n ∈ ["account", "user_role"],
        ((Event.elementsSince n m.delivered).map camelCase).Nodup ∧
          "id" ∉ (Event.elementsSince n m.delivered).map camelCase := by
      decide +kernel
    refine ⟨hstart, objects, rfl, htop.2 ?_, fun o ho => (hfields o ho).2 ?_⟩
    · exact ⟨hinj, hgetters, htypes, hconnections.mono fun _ h => h.1,
        fun a ha b hb => (hapart a ha b hb).1, fun a ha b hb _ => (hapart a ha b hb).2.1,
        fun a ha b hb => (hapart a ha b hb).2.2⟩
    · exact helements o.name (hnames ▸ List.mem_map_of_mem ho)

/-- Two spellings of one name share their class, and an attribute may be named as the id is. -/
theorem identifiers_meet :
    let key := AttributeDecl.full (AttributeConfig.empty.withFlag "in_key_hash" (.bool true))
    let keyed := Entity.empty.withAttribute "id" key
    let m := (Model.empty.insert "user_role" keyed).insert "UserRole" keyed
    let start : Schema.Builder := ⟨.ofTables .builtIn, "", "graphql", "__id_unique", .empty⟩
    Schema.Builder.ofOptions .builtIn { SchemaOptions.builtIn with template := some "" } =
        .ok start ∧
      ∃ objects, m.parseWith start = ((m.parseWith start).1, none) ∧
        (m.parseWith start).1.orderedObjects = .ok objects ∧
        ¬ (objects.flatMap Schema.Object.topLevelNames).Nodup ∧
        ∀ o ∈ objects, ¬ o.fieldNames.Nodup := by
  intro key keyed m start
  have hrun : ((m.parseWith start).1.orderedObjects.toOption.any fun objects =>
      ¬ (objects.flatMap Schema.Object.topLevelNames).Nodup ∧
        ∀ o ∈ objects, ¬ o.fieldNames.Nodup) = true := by
    decide +kernel
  have hparse : (m.parseWith start).2 = none := by decide +kernel
  cases hobjects : (m.parseWith start).1.orderedObjects with
  | error e => simp [hobjects, Except.toOption] at hrun
  | ok objects =>
    obtain ⟨htop, hfields⟩ : ¬ (objects.flatMap Schema.Object.topLevelNames).Nodup ∧
        ∀ o ∈ objects, ¬ o.fieldNames.Nodup := by
      simpa only [hobjects, Except.toOption, Option.any_some, decide_eq_true_eq] using hrun
    exact ⟨rfl, objects, Prod.ext rfl hparse, rfl, htop, hfields⟩

end EntityModel
