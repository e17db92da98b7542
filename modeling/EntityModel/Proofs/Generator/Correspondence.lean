import EntityModel.Proofs.Generator.Builder
import EntityModel.Proofs.Parse.History
import EntityModel.Proofs.Validator.NormalForm

/-!
# What a generator file has of a model

`VertexOf` and `EdgeOf` say what the vertex of an entity and the edge of a reference are, in terms
of the declarations. Vertices have the names of their entities, and none is lost. Edges have names
that are made of two names with a dot between them, and two references can get one name so; then the
edge of the last one stands alone. So the edges of a valid model are as many as its references
exactly if their names are apart (`edges_correspond_iff_names_apart`).
-/

namespace EntityModel

/-- The references of a model in declared order, each with its entity and its name. -/
def Model.references (m : Model) : List (String × String × ReferenceDecl) :=
  m.entities.entries.flatMap fun e => e.2.references.entries.map fun r => (e.1, r.1, r.2)

namespace Generator

/-- The vertex of an entity: its description, and each attribute it declares with the name of its
type, in declared order. -/
structure VertexOf (e : Entity) (v : Vertex) : Prop where
  description : v.description = e.description.getD ""
  attributes : List.Forall₂ (fun declared a => a.1 = declared.1 ∧
    declared.2.config.type.getD (.text "string") = .text a.2) e.attributes.entries
      v.attributes.entries

/-- The edge of a reference of an entity, bounded as the annotation of the namespace says. -/
structure EdgeOf (ns entity : String) (c : ReferenceConfig) (edge : Edge) : Prop where
  source : edge.source = entity
  target : c.target = some (.text edge.target)
  description : edge.description = c.description.getD ""
  upperBound : edge.upperBound = (c.annotations.find? ns).bind Annotation.upperBound?

/-- A reference has one edge only. -/
theorem EdgeOf.unique {ns entity : String} {c : ReferenceConfig} {edge edge' : Edge}
    (h : EdgeOf ns entity c edge) (h' : EdgeOf ns entity c edge') : edge = edge' := by
  obtain ⟨source, target, description, bound⟩ := edge
  obtain ⟨rfl, htarget, rfl, rfl⟩ := h
  obtain ⟨source', target', description', bound'⟩ := edge'
  obtain ⟨hsource, htarget', hdescription, hbound⟩ := h'
  cases htarget.symm.trans htarget'
  cases hsource
  cases hdescription
  cases hbound
  rfl

end Generator

/-- No two references of the model have one edge name. -/
def Model.EdgesApart (m : Model) : Prop :=
  (m.references.map fun r => Generator.edgeName r.1 r.2.1).Nodup

instance (m : Model) : Decidable m.EdgesApart :=
  inferInstanceAs (Decidable (m.references.map fun r => Generator.edgeName r.1 r.2.1).Nodup)

/-! ## Names of edges -/

/-- The characters before the first dot of a name of an edge are its entity, if that has no dot. -/
theorem Generator.takeWhile_edgeName {n : String} (hn : '.' ∉ n.toList) (r : String) :
    (edgeName n r).toList.takeWhile (· ≠ '.') = n.toList := by
  have hchars : ∀ c ∈ n.toList, decide (c ≠ '.') = true := fun c hc =>
    decide_eq_true fun h => hn (h ▸ hc)
  have hlist : (edgeName n r).toList = n.toList ++ '.' :: r.toList := by
    simp [edgeName]
  rw [hlist, List.takeWhile_append_of_pos hchars]
  simp

/-- If entities have no dot in their names, a name of an edge tells its entity and its reference. -/
theorem Generator.edgeName_inj {n n' r r' : String} (hn : '.' ∉ n.toList) (hn' : '.' ∉ n'.toList)
    (h : edgeName n r = edgeName n' r') : n = n' ∧ r = r' := by
  have hentity : n = n' := by
    refine String.toList_injective ?_
    rw [← takeWhile_edgeName hn r, h, takeWhile_edgeName hn']
  subst hentity
  -- What stands behind the entity and the dot is the reference.
  have hlist := congrArg String.toList h
  exact ⟨rfl, String.toList_injective (by simpa [edgeName] using hlist)⟩

namespace Model

variable (t : ValidationTables) (m : Model)

/-- A reference of a model is one of an entity of it. -/
theorem mem_references {m : Model} {n r : String} {d : ReferenceDecl} :
    (n, r, d) ∈ m.references ↔ ∃ e, m.find? n = some e ∧ e.references.find? r = some d := by
  simp only [references, List.mem_flatMap, List.mem_map, Prod.mk.injEq, Prod.exists,
    OrderedMap.mem_entries]
  constructor
  · rintro ⟨n, e, he, r, d, hd, rfl, rfl, rfl⟩
    exact ⟨e, he, hd⟩
  · rintro ⟨e, he, hd⟩
    exact ⟨n, e, he, r, d, hd, rfl, rfl, rfl⟩

/-- No reference is declared twice under its entity and its name. -/
theorem nodup_references : (m.references.map fun r => (r.1, r.2.1)).Nodup := by
  rw [references, List.map_flatMap]
  refine m.entities.nodup_flatMap_entries _ Prod.fst (fun e _ => ?_) fun e p hp => ?_
  · have hnames : (e.2.references.keys.map fun r => (e.1, r)).Nodup :=
      e.2.references.nodup_keys.map fun _ _ h => (Prod.mk.inj h).2
    rw [OrderedMap.keys, List.map_map] at hnames
    rw [List.map_map]
    exact hnames
  · obtain ⟨_, hr, rfl⟩ := List.mem_map.1 hp
    obtain ⟨r, -, rfl⟩ := List.mem_map.1 hr
    rfl

/-- If no entity has a dot in its name, no two references have one edge name. -/
theorem edgesApart_of_no_dot (h : ∀ n ∈ m.names, '.' ∉ n.toList) : m.EdgesApart := by
  have hentity : ∀ r ∈ m.references, '.' ∉ r.1.toList := by
    rintro ⟨n, r, d⟩ hr
    obtain ⟨e, he, -⟩ := mem_references.1 hr
    exact h n (OrderedMap.mem_keys_of_find? he)
  refine List.pairwise_map.2 ((List.pairwise_map.1 m.nodup_references).imp_of_mem ?_)
  intro r r' hr hr' hne hname
  obtain ⟨hn, hreference⟩ := Generator.edgeName_inj (hentity r hr) (hentity r' hr') hname
  exact hne (Prod.ext hn hreference)

/-- The third pass declares the references. -/
theorem referenceEvents_eq :
    m.referenceEvents = m.references.map fun r => .declareReference r.1 r.2.1 r.2.2.config := by
  rw [referenceEvents, references, List.map_flatMap]
  simp only [List.map_map]
  rfl

end Model

/-! ## Valid models -/

/-- An attribute of which the type is right has a text as its type, the name that it is given with
its defaults. -/
theorem ValidationTables.type_of_typeErrors {t : ValidationTables} {c : AttributeConfig}
    (h : t.typeErrors c = []) : c.type.getD (.text "string") = .text (t.complete c).typeName := by
  cases hc : c.type with
  | none => simp [AttributeConfig.typeName, complete, hc, defaultAttributeType, Value.asText?]
  | some v =>
    cases v with
    | text s => simp [AttributeConfig.typeName, complete, hc, Value.asText?]
    | _ => simp [typeErrors, hc] at h

namespace Model

variable {t : ValidationTables} {m : Model}

/-- Where a parse that checks targets finds nothing, attributes have texts as types. -/
theorem type_of_checkedRows (h : m.checkedRows t = []) {e : String × Entity}
    (he : e ∈ m.entities.entries) {a : String × AttributeDecl} (ha : a ∈ e.2.attributes.entries) :
    a.2.config.type.getD (.text "string") = .text (t.complete a.2.config).typeName := by
  have hpass := (List.append_eq_nil_iff.1 h).1
  have hfindings := List.flatMap_eq_nil_iff.1 (List.append_eq_nil_iff.1 hpass).1
  have hev : Event.declareAttribute e.1 a.1 a.2.config ∈ m.entityEvents ++ m.attributeEvents :=
    List.mem_append_right _ (List.mem_flatMap.2 ⟨e, he, List.mem_map_of_mem ha⟩)
  have herrors := List.map_eq_nil_iff.1 (hfindings _ hev)
  exact ValidationTables.type_of_typeErrors (List.append_eq_nil_iff.1 herrors).1

/-- Where a parse that checks targets finds nothing, all references are known. -/
theorem known_of_checkedRows (h : m.checkedRows t = []) {r : String × String × ReferenceDecl}
    (hr : r ∈ m.references) : ∃ c, r.2.2.config.known? m.names = some c := by
  have hpass := (List.append_eq_nil_iff.1 h).1
  have hrows := List.flatMap_eq_nil_iff.1 (List.append_eq_nil_iff.1 hpass).2
  have hev : Event.declareReference r.1 r.2.1 r.2.2.config ∈ m.referenceEvents :=
    m.referenceEvents_eq ▸ List.mem_map_of_mem hr
  obtain ⟨hfindings, htarget⟩ := List.append_eq_nil_iff.1 (hrows _ hev)
  obtain ⟨c, hc⟩ := ReferenceConfig.exists_complete?_of_errors (List.map_eq_nil_iff.1 hfindings)
  refine ⟨c, ReferenceConfig.known?_eq_some.2 ⟨hc, ?_⟩⟩
  by_contra hunknown
  simp [Event.targetRows, hc, hunknown] at htarget

end Model

/-! ## The parse of a model -/

/-- The vertex that is made of an entity. -/
def Entity.vertex (t : ValidationTables) (e : Entity) : Generator.Vertex :=
  ⟨e.description.getD "", e.attributes.mapValues fun _ a => (t.complete a.config).typeName⟩

namespace Generator

/-- The edge of a reference of which the target is known, under its name. -/
def edgeEntry (ns : String) (r : String × String × ReferenceDecl) : String × Edge :=
  (edgeName r.1 r.2.1, ⟨r.1, r.2.2.config.targetName?.getD "", r.2.2.config.description.getD "",
    (r.2.2.config.annotations.find? ns).bind Annotation.upperBound?⟩)

/-- The edge of a reference that is known is what the reference declares. -/
theorem edgeOf_edgeEntry (ns : String) {names : List String}
    {r : String × String × ReferenceDecl} {c : NormalizedReference}
    (hc : r.2.2.config.known? names = some c) :
    EdgeOf ns r.1 r.2.2.config (edgeEntry ns r).2 where
  source := rfl
  target := by
    obtain ⟨hcomplete, -⟩ := ReferenceConfig.known?_eq_some.1 hc
    obtain ⟨htarget, -, -⟩ := ReferenceConfig.of_complete? hcomplete
    rw [edgeEntry, htarget, Option.getD_some]
    unfold ReferenceConfig.targetName? at htarget
    obtain ⟨v, hv, htext⟩ := Option.bind_eq_some_iff.1 htarget
    cases v with
    | text s =>
      cases htext
      exact hv
    | _ => cases htext
  description := rfl
  upperBound := rfl

/-- Of the entries of references that are inserted under a name, the last counts. -/
theorem find?_insertAll_edgeEntry {ns name : String} {edge : Edge}
    {rs : List (String × String × ReferenceDecl)} :
    (OrderedMap.empty.insertAll (rs.map (edgeEntry ns))).find? name = some edge ↔
      ∃ before r after, rs = before ++ r :: after ∧ edgeName r.1 r.2.1 = name ∧
        (∀ r' ∈ after, edgeName r'.1 r'.2.1 ≠ name) ∧ (edgeEntry ns r).2 = edge := by
  have hkeys : ∀ after : List (String × String × ReferenceDecl),
      name ∉ (after.map (edgeEntry ns)).map Prod.fst ↔
        ∀ r' ∈ after, edgeName r'.1 r'.2.1 ≠ name := by
    intro after
    simp [edgeEntry]
  rw [OrderedMap.find?_insertAll, OrderedMap.find?_empty, Option.or_none,
    OrderedMap.lookupIn_reverse_eq_some]
  constructor
  · rintro ⟨before, after, hrs, hafter⟩
    obtain ⟨first, rest, rfl, -, hrest⟩ := List.map_eq_append_iff.1 hrs
    obtain ⟨r, last, rfl, hr, rfl⟩ := List.map_eq_cons_iff.1 hrest
    exact ⟨first, r, last, rfl, congrArg Prod.fst hr, (hkeys last).1 hafter, congrArg Prod.snd hr⟩
  · rintro ⟨before, r, after, rfl, rfl, hafter, rfl⟩
    exact ⟨before.map (edgeEntry ns), after.map (edgeEntry ns), by rw [List.map_append]; rfl,
      (hkeys after).2 hafter⟩

/-- Edges with the names of the references are as many exactly if the names are apart. -/
theorem size_insertAll_edgeEntry (ns : String) (m : Model) :
    (OrderedMap.empty.insertAll (m.references.map (edgeEntry ns))).size = m.references.length ↔
      m.EdgesApart := by
  have hnames : (m.references.map (edgeEntry ns)).map Prod.fst =
      m.references.map fun r => edgeName r.1 r.2.1 := by
    rw [List.map_map]
    rfl
  rw [Model.EdgesApart, ← hnames, ← OrderedMap.size_insertAll_empty, List.length_map]

/-- The vertex of an entity is what the entity declares, if its types are texts. -/
theorem vertexOf_vertex {t : ValidationTables} {e : Entity}
    (h : ∀ a ∈ e.attributes.entries,
      a.2.config.type.getD (.text "string") = .text (t.complete a.2.config).typeName) :
    VertexOf e (e.vertex t) where
  description := rfl
  attributes := List.forall₂_map_right_iff.2 (List.forall₂_same.2 fun a ha => ⟨rfl, h a ha⟩)

/-- The events about an entity make its vertex. -/
theorem foldl_vertexAfter (t : ValidationTables) (n : String) (e : Entity) (o : Option Vertex) :
    (e.events n).foldl (vertexAfter t) o = some (e.vertex t) := by
  have hattributes : ∀ (as : List (String × AttributeDecl)) (v : Vertex),
      (as.map fun a => Event.declareAttribute n a.1 a.2.config).foldl (vertexAfter t) (some v) =
        some ⟨v.description, v.attributes.insertAll
          (as.map fun a => (a.1, (t.complete a.2.config).typeName))⟩ := by
    intro as
    induction as with
    | nil => exact fun _ => rfl
    | cons a as ih => exact fun v => ih _
  have hreferences : ∀ (rs : List (String × ReferenceDecl)) (o : Option Vertex),
      (rs.map fun r => Event.declareReference n r.1 r.2.config).foldl (vertexAfter t) o = o := by
    intro rs
    induction rs with
    | nil => exact fun _ => rfl
    | cons r rs ih => exact fun o => ih o
  have hinserted := OrderedMap.empty.entries_insertAll (e.vertex t).attributes.nodup_keys
  rw [Entity.events, List.foldl_cons, List.foldl_append, vertexAfter, Entity.attributeEvents,
    hattributes, Entity.referenceEvents, hreferences]
  exact congrArg (fun as => some (Vertex.mk (e.description.getD "") as))
    (OrderedMap.ext_entries hinserted)

namespace Builder

variable (t : ValidationTables) (options : GeneratorOptions) (m : Model)

/-- The parse of a model by a fresh builder makes the vertices of its entities, in declared
order. -/
theorem vertices_parsed :
    (m.events.foldl accept (ofOptions t options)).vertices =
      m.entities.mapValues fun _ e => e.vertex t := by
  have hkeys : (m.events.foldl accept (ofOptions t options)).vertices.keys = m.names := by
    have hnodup : ([] ++ m.names).Nodup := m.entities.nodup_keys
    rw [keys_vertices_foldl, Model.flatMap_declares]
    exact DependencyGraph.foldl_addName_of_nodup hnodup
  refine OrderedMap.ext_find? ?_ fun n hn => ?_
  · rw [hkeys, OrderedMap.keys_mapValues]
    rfl
  · obtain ⟨e, he⟩ := m.entities.exists_find?_of_mem (show n ∈ m.names from hkeys ▸ hn)
    have hevents : (m.events.filter fun ev => ev.entity? = some n) = e.events n := by
      rw [Model.events_eq, List.filter_append, Model.filter_passes he]
      exact List.append_nil _
    rw [find?_vertices_foldl, hevents, foldl_vertexAfter, OrderedMap.find?_mapValues, he]
    rfl

/-- The parse of a model by a fresh builder inserts the edges of the references that are known, in
declared order. -/
theorem edges_parsed :
    (m.events.foldl accept (ofOptions t options)).edges =
      OrderedMap.empty.insertAll (m.elementEvents.filterMap fun ev =>
        ev.edge? options.ns (ev.known? m.names)) := by
  have hmodel : (m.entityEvents.foldl accept (ofOptions t options)).validator.model =
      (m.declared t).model :=
    (ofOptions t options).model_foldl m.entityEvents
  have hnames : (m.entityEvents.foldl accept (ofOptions t options)).validator.model.names =
      m.names := by
    rw [hmodel, m.names_declared t]
  have helements := (m.entityEvents.foldl accept (ofOptions t options)).edges_foldl_elements hnames
    ((m.awaits_declared t).of_model_eq hmodel)
  have hentities : (m.entityEvents.foldl accept (ofOptions t options)).edges = .empty :=
    (ofOptions t options).edges_foldl_entities m.entities.entries
  have hns : (m.entityEvents.foldl accept (ofOptions t options)).ns = options.ns := by
    rw [foldl_eq]
    rfl
  rw [hns, hentities] at helements
  rw [Model.events_eq, List.foldl_append, List.foldl_append]
  exact helements

variable {t options m}

/-- If nothing wrong is found in a model, there are no rows to file. -/
theorem checkedRows_of_isValid
    (hvalid : Consumer.isValid (m.events.foldl accept (ofOptions t options)) = true) :
    m.checkedRows t = [] := by
  have herrors : (m.events.foldl accept (ofOptions t options)).validator.errors =
      ErrorRecord.empty.addAll (m.checkedRows t) := by
    rw [Validator.inner_foldl validator_accept]
    exact congrArg Validator.errors (m.foldl_acceptChecked_events t)
  change (m.events.foldl accept (ofOptions t options)).validator.errors.isEmpty = true at hvalid
  rw [herrors] at hvalid
  exact (ErrorRecord.WellFiled.empty.isEmpty_addAll.1 hvalid).1

/-- Where all references are known, each one inserts its edge. -/
theorem filterMap_edge? (ns : String)
    (hknown : ∀ r ∈ m.references, ∃ c, r.2.2.config.known? m.names = some c) :
    (m.elementEvents.filterMap fun ev => ev.edge? ns (ev.known? m.names)) =
      m.references.map (edgeEntry ns) := by
  have hattributes : (m.attributeEvents.filterMap fun ev => ev.edge? ns (ev.known? m.names)) =
      [] := by
    refine List.filterMap_eq_nil_iff.2 fun ev hev => ?_
    obtain ⟨n, e, a, d, -, -, rfl⟩ := Model.mem_attributeEvents.1 hev
    rfl
  have hreferences : ∀ r ∈ m.references,
      (Event.declareReference r.1 r.2.1 r.2.2.config).edge? ns
        ((Event.declareReference r.1 r.2.1 r.2.2.config).known? m.names) =
          some (edgeEntry ns r) := by
    intro r hr
    obtain ⟨c, hc⟩ := hknown r hr
    obtain ⟨hcomplete, -⟩ := ReferenceConfig.known?_eq_some.1 hc
    obtain ⟨htarget, hdescription, hannotations⟩ := ReferenceConfig.of_complete? hcomplete
    simp only [Event.known?, Event.edge?, hc, Option.map_some, edgeEntry, htarget, Option.getD_some,
      hdescription, NormalizedReference.upperBound?, hannotations]
  rw [Model.elementEvents, List.filterMap_append, hattributes, List.nil_append,
    Model.referenceEvents_eq, List.filterMap_map]
  exact (List.filterMap_congr hreferences).trans (congrFun List.filterMap_eq_map _)

end Builder

end Generator

/-! ## Main statement -/

/-- The file that a fresh builder makes of a valid model has a vertex for each entity, with all its
attributes and their types, in declared order. An edge of a name is that of the last reference with
this edge name. So the edges are those of the references, one by one in declared order, if the names
are apart, and they are as many as the references only then; names are apart where no entity has a
dot in its name. -/
theorem edges_correspond_iff_names_apart {t : ValidationTables} {options : GeneratorOptions}
    {m : Model} {g : Generator.Builder}
    (h : m.parseWith (Generator.Builder.ofOptions t options) = (g, none))
    (hvalid : Consumer.isValid g = true) :
    List.Forall₂ (fun declared v => v.1 = declared.1 ∧ Generator.VertexOf declared.2 v.2)
        m.entities.entries g.vertices.entries ∧
      (∀ name edge, g.edges.find? name = some edge ↔ ∃ before r after,
        m.references = before ++ r :: after ∧ Generator.edgeName r.1 r.2.1 = name ∧
          (∀ r' ∈ after, Generator.edgeName r'.1 r'.2.1 ≠ name) ∧
          Generator.EdgeOf options.ns r.1 r.2.2.config edge) ∧
      (m.EdgesApart → List.Forall₂ (fun r edge => edge.1 = Generator.edgeName r.1 r.2.1 ∧
        Generator.EdgeOf options.ns r.1 r.2.2.config edge.2) m.references g.edges.entries) ∧
      (g.edges.size = m.references.length ↔ m.EdgesApart) ∧
      ((∀ n ∈ m.names, '.' ∉ n.toList) → m.EdgesApart) := by
  obtain ⟨-, rfl⟩ := Model.of_parseWith Generator.Builder.handle_eq_ok h
  have hrows := Generator.Builder.checkedRows_of_isValid hvalid
  have hknown : ∀ r ∈ m.references, ∃ c, r.2.2.config.known? m.names = some c :=
    fun _ => Model.known_of_checkedRows hrows
  have hvertices := Generator.Builder.vertices_parsed t options m
  have hedges := Generator.Builder.edges_parsed t options m
  rw [Generator.Builder.filterMap_edge? options.ns hknown] at hedges
  rw [hvertices, hedges]
  refine ⟨?_, fun name edge => ?_, fun hapart => ?_,
    Generator.size_insertAll_edgeEntry options.ns m, m.edgesApart_of_no_dot⟩
  · refine List.forall₂_map_right_iff.2 (List.forall₂_same.2 fun e he => ⟨rfl, ?_⟩)
    exact Generator.vertexOf_vertex fun _ ha => Model.type_of_checkedRows hrows he ha
  · rw [Generator.find?_insertAll_edgeEntry]
    refine exists_congr fun before => exists_congr fun r => exists_congr fun after =>
      and_congr_right fun hsplit => and_congr_right fun _ => and_congr_right fun _ => ?_
    obtain ⟨c, hc⟩ := hknown r (by simp [hsplit])
    have hedge := Generator.edgeOf_edgeEntry options.ns hc
    exact ⟨fun h => h ▸ hedge, hedge.unique⟩
  · have hnames : ((m.references.map (Generator.edgeEntry options.ns)).map Prod.fst).Nodup := by
      rw [List.map_map]
      exact hapart
    have hentries := OrderedMap.empty.entries_insertAll hnames
    rw [hentries]
    refine List.forall₂_map_right_iff.2 (List.forall₂_same.2 fun r hr => ⟨rfl, ?_⟩)
    obtain ⟨c, hc⟩ := hknown r hr
    exact Generator.edgeOf_edgeEntry options.ns hc

/-- The reference "owner.home" of a pet and the reference "home" of the entity "Pet.owner" have one
edge name, and the file has an edge for the second one only. -/
theorem edges_lost_where_names_meet :
    let key := AttributeDecl.full (AttributeConfig.empty.withFlag "in_key_hash" (.bool true))
    let keyed := Entity.empty.withAttribute "id" key
    let m := (Model.empty.insert "Pet"
      (keyed.withReference "owner.home" (.shorthand (.text "Pet")))).insert "Pet.owner"
        (keyed.withReference "home" (.shorthand (.text "Pet.owner")))
    ∃ g edge, m.parseWith (Generator.Builder.ofOptions .builtIn .builtIn) = (g, none) ∧
      Consumer.isValid g = true ∧ ¬ m.EdgesApart ∧
      g.edges.entries = [("Pet.owner.home", edge)] ∧ edge.source = "Pet.owner" ∧
      m.references.length = 2 ∧ g.edges.size ≠ 2 := by
  intro key keyed m
  have hrun : let r := m.parseWith (Generator.Builder.ofOptions .builtIn .builtIn)
      r.2 = none ∧ Consumer.isValid r.1 = true ∧ r.1.edges.entries =
        [("Pet.owner.home", ⟨"Pet.owner", "Pet.owner", "", none⟩)] := by
    decide +kernel
  rcases hparse : m.parseWith (Generator.Builder.ofOptions .builtIn .builtIn) with ⟨g, f⟩
  rw [hparse] at hrun
  obtain ⟨rfl, hvalid, hedges⟩ := hrun
  obtain ⟨-, -, -, hsize, -⟩ := edges_correspond_iff_names_apart hparse hvalid
  have hmeet : ¬ m.EdgesApart := by decide
  have hlength : m.references.length = 2 := rfl
  rw [hlength] at hsize
  exact ⟨g, _, rfl, hvalid, hmeet, hedges, rfl, hlength, fun h => hmeet (hsize.1 h)⟩

end EntityModel
