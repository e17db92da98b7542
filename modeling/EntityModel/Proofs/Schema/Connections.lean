import EntityModel.Proofs.Schema.Context
import EntityModel.Proofs.Schema.Objects

/-!
# Connections over several parses

The object of an entity that is declared again starts anew, without a connection. The fields of
other objects that lead to it stay, those of earlier parses too. So what counts is what took place
since an entity was last declared (`Event.Since`): a field of a connection is there if its own
entity was not declared again, and the connection of an object if the target was not
(`Builder.Connected`). The connections in use are defined exactly if the second follows from the
first (`connections_defined_iff`).
-/

namespace EntityModel

namespace Event

/-- An event with the property took place since the entity was last declared. -/
def Since (p : Event → Prop) (n : String) (evs : List Event) : Prop :=
  ∃ before ev after, evs = before ++ ev :: after ∧ p ev ∧ n ∉ after.flatMap Event.declares

/-- What took place is an event with the property, or took place before one that does not declare
the entity. -/
theorem since_concat {p : Event → Prop} {n : String} {evs : List Event} {ev : Event} :
    Since p n (evs ++ [ev]) ↔ p ev ∨ n ∉ ev.declares ∧ Since p n evs := by
  constructor
  · rintro ⟨before, ev', after, h, hp, hn⟩
    rcases List.eq_nil_or_concat after with rfl | ⟨after, last, rfl⟩
    · obtain ⟨-, rfl⟩ := List.append_singleton_inj.1 h
      exact .inl hp
    · rw [List.concat_eq_append, ← List.cons_append, ← List.append_assoc,
        List.append_singleton_inj] at h
      obtain ⟨rfl, rfl⟩ := h
      rw [List.concat_eq_append, List.flatMap_append, List.mem_append, not_or] at hn
      exact .inr ⟨by simpa using hn.2, before, ev', after, rfl, hp, hn.1⟩
  · rintro (hp | ⟨hn, before, ev', after, rfl, hp, hafter⟩)
    · exact ⟨evs, ev, [], rfl, hp, List.not_mem_nil⟩
    · refine ⟨before, ev', after ++ [ev], by simp, hp, ?_⟩
      simp only [List.flatMap_append, List.mem_append, not_or]
      exact ⟨hafter, by simpa using hn⟩

/-- What took place since an entity was declared took place. -/
theorem Since.exists_mem {p : Event → Prop} {n : String} {evs : List Event} (h : Since p n evs) :
    ∃ ev ∈ evs, p ev := by
  obtain ⟨before, ev, after, rfl, hp, -⟩ := h
  exact ⟨ev, List.mem_append_right _ (List.mem_cons_self ..), hp⟩

/-- The reference that an event declares, if its target is usable. -/
def complete? : Event → Option NormalizedReference
  | .declareReference _ _ c => c.complete?
  | _ => none

/-- The event declares a paged reference from an entity to another one, or to itself. -/
def Connects (ns source target : String) (ev : Event) : Prop :=
  ev.entity? = some source ∧ ∃ r, ev.complete? = some r ∧ r.cardinality ns = .connection ∧
    r.target = target

end Event

namespace Schema

/-- The object has a field for a connection of this name. -/
def Object.Uses (o : Object) (connection : String) : Prop :=
  ∃ f ∈ o.fields, f.kind = .reference .connection ∧ f.graphqlType = connection

/-- Every connection in use is that of an object. -/
def ConnectionsDefined (objects : List Object) : Prop :=
  ∀ o ∈ objects, ∀ f ∈ o.fields, f.kind = .reference .connection →
    ∃ o' ∈ objects, o'.connection = some f.graphqlType

namespace Builder

/-! ## References of valid models -/

/-- Where nothing wrong was found after a reference was declared, its check gave it, and its target
is an entity. -/
theorem known_of_valid {b : Builder} (h : b.validator.errors.WellFiled) {entity name : String}
    {c : ReferenceConfig}
    (hvalid : (b.accept (.declareReference entity name c)).validator.isValid = true) :
    ∃ r, c.complete? = some r ∧
      r.target ∈ (b.accept (.declareReference entity name c)).validator.model.names ∧
      (b.validator.acceptChecked (.declareReference entity name c)).1 = some r := by
  obtain ⟨hbefore, hfindings⟩ := findings_of_valid h hvalid
  obtain ⟨hown, -⟩ := List.append_eq_nil_iff.1 hfindings
  obtain ⟨r, hr⟩ := ReferenceConfig.exists_complete?_of_errors (List.map_eq_nil_iff.1 hown)
  have hreference : (b.validator.accept (.declareReference entity name c)).model.reference? entity
      name = some r := by
    rw [Validator.reference?_accept, if_pos ⟨rfl, rfl⟩, hr, Option.some_or]
  have hchecked := b.validator.acceptChecked_of_reference? hreference
  rw [model_accept]
  rw [validator_accept, hchecked] at hvalid
  have hfiled : (b.validator.accept (.declareReference entity name c)).errors.WellFiled := by
    rw [Validator.errors_accept]
    exact h.addAll _
  have hknown : r.target ∈
      (b.validator.accept (.declareReference entity name c)).model.names := by
    by_contra hunknown
    obtain ⟨hrows, -⟩ := hfiled.isEmpty_addAll.1 hvalid
    rw [if_neg hunknown] at hrows
    cases hrows
  exact ⟨r, hr, hknown, by rw [hchecked, if_pos hknown]⟩

/-- In a valid model, a check gives the reference that the event declares. -/
theorem acceptChecked_fst_of_valid {b : Builder} (h : b.validator.errors.WellFiled) {ev : Event}
    (hvalid : (b.accept ev).validator.isValid = true) :
    (b.validator.acceptChecked ev).1 = ev.complete? := by
  cases ev with
  | declareReference entity name c =>
    obtain ⟨r, hr, -, hgiven⟩ := known_of_valid h hvalid
    exact hgiven.trans hr.symm
  | _ => rfl

/-! ## Fields and connections after events -/

/-- The field of an event uses a connection exactly if the event connects its entity to one of that
name. -/
theorem uses_field?_iff (t : ValidationTables) (ns : String) (ev : Event) (n connection : String) :
    (∃ f ∈ if ev.entity? = some n then (ev.field? t ns ev.complete?).toList else [],
      f.kind = .reference .connection ∧ f.graphqlType = connection) ↔
      ∃ x, ev.Connects ns n x ∧ Naming.connectionName x = connection := by
  by_cases hn : ev.entity? = some n
  · cases ev with
    | declareReference entity name c =>
      cases hc : c.complete? with
      | none => simp [hn, Event.field?, Event.Connects, Event.complete?, hc]
      | some r =>
        cases hkind : r.cardinality ns <;>
          simp [hn, Event.field?, Event.Connects, Event.complete?, hc, hkind, Field.ofReference]
    | _ => simp [hn, Event.field?, Event.Connects, Event.complete?, Field.ofAttribute]
  · simp [hn, Event.Connects]

/-- The objects that an event marks are those that it connects some entity to. -/
theorem pages_iff_connects (ns : String) (ev : Event) (n : String) :
    (ev.complete?.any fun r => r.pages ns n) = true ↔ ∃ s, ev.Connects ns s n := by
  cases ev <;> simp [Event.Connects, Event.complete?, Event.entity?, NormalizedReference.pages,
    Option.any_eq_true]

/-- What the objects say of connections took place since their entities were declared: an object
uses those of the entities that its own was connected to, and has one if some entity was connected
to its own. Entities that were connected have objects. -/
structure Connected (b : Builder) (evs : List Event) : Prop where
  known : ∀ ev ∈ evs, ∀ s x, ev.Connects b.ns s x → s ∈ b.objects.keys ∧ x ∈ b.objects.keys
  uses : ∀ s o, b.objects.find? s = some o → ∀ connection, o.Uses connection ↔
    ∃ x, Event.Since (Event.Connects b.ns s x) s evs ∧ Naming.connectionName x = connection
  connection : ∀ x o, b.objects.find? x = some o → ∀ connection, o.connection = some connection ↔
    Event.Since (fun ev => ∃ s, ev.Connects b.ns s x) x evs ∧
      Naming.connectionName x = connection

/-- Without objects nothing took place. -/
theorem Connected.of_empty {b : Builder} (h : b.objects = .empty) : b.Connected [] where
  known := by
    intro ev hev
    cases hev
  uses := by
    intro s o ho
    rw [h] at ho
    cases ho
  connection := by
    intro x o ho
    rw [h] at ho
    cases ho

/-- The object of an entity after an event that leaves the model valid: a new one, or one that the
event has extended by what it declares. -/
theorem object_of_accept {b : Builder} (h : b.validator.errors.WellFiled) {ev : Event}
    (hvalid : (b.accept ev).validator.isValid = true) {n : String} {o : Object}
    (ho : (b.accept ev).objects.find? n = some o) :
    (∃ e, ev = .declareEntity n e ∧ o = .ofEntity n (e.description.getD "")) ∨
      n ∉ ev.declares ∧ ∃ o', b.objects.find? n = some o' ∧ o = o'.extend n
        (if ev.entity? = some n then
          (ev.field? b.validator.tables b.ns ev.complete?).toList else [])
        (ev.complete?.any fun r => r.pages b.ns n) := by
  by_cases hn : n ∈ ev.declares
  · cases ev with
    | declareEntity name e =>
      obtain rfl := List.mem_singleton.1 hn
      rw [find?_accept_declared] at ho
      exact .inl ⟨e, rfl, (Option.some.inj ho).symm⟩
    | _ => cases hn
  · rw [b.find?_accept hn, acceptChecked_fst_of_valid h hvalid] at ho
    obtain ⟨o', ho', rfl⟩ := Option.map_eq_some_iff.1 ho
    exact .inr ⟨hn, o', ho', rfl⟩

/-- An object with further fields uses the connections that it used, and those of the fields. -/
theorem uses_extend_iff (o : Object) (n : String) (fields : List Field) (paged : Bool)
    (connection : String) :
    (o.extend n fields paged).Uses connection ↔ o.Uses connection ∨
      ∃ f ∈ fields, f.kind = .reference .connection ∧ f.graphqlType = connection := by
  simp only [Object.Uses, Object.extend, List.mem_append, or_and_right, exists_or]

/-- A reference of a valid model connects entities with objects. -/
theorem Covered.mem_keys_of_connects {b : Builder} (h : b.Covered) {ev : Event}
    (hvalid : (b.accept ev).validator.isValid = true) {s x : String}
    (hconnects : ev.Connects b.ns s x) :
    s ∈ (b.accept ev).objects.keys ∧ x ∈ (b.accept ev).objects.keys := by
  have hbuilt := (h.accept ev).built hvalid
  obtain ⟨hs, r, hr, -, rfl⟩ := hconnects
  cases ev with
  | declareReference entity name c =>
    obtain ⟨r', hr', hknown, -⟩ := known_of_valid h.wellFiled hvalid
    obtain rfl : r' = r := Option.some.inj (hr'.symm.trans hr)
    obtain rfl : entity = s := Option.some.inj hs
    refine ⟨hbuilt entity ?_, hbuilt r'.target hknown⟩
    rw [model_accept, Validator.names_accept, DependencyGraph.mem_foldl_addName]
    exact .inr (by simp [Event.registers, hr'])
  | _ => cases hr

/-- A further event that leaves the model valid takes place. -/
theorem Connected.accept {b : Builder} {evs : List Event} (h : b.Connected evs) (hb : b.Covered)
    {ev : Event} (hvalid : (b.accept ev).validator.isValid = true) :
    (b.accept ev).Connected (evs ++ [ev]) where
  known := by
    intro ev' hev' s x hconnects
    rw [ns_accept] at hconnects
    rcases List.mem_append.1 hev' with hold | hnew
    · obtain ⟨hs, hx⟩ := h.known ev' hold s x hconnects
      rw [keys_accept, DependencyGraph.mem_foldl_addName, DependencyGraph.mem_foldl_addName]
      exact ⟨.inl hs, .inl hx⟩
    · obtain rfl := List.mem_singleton.1 hnew
      exact hb.mem_keys_of_connects hvalid hconnects
  uses := by
    intro s o ho connection
    simp only [ns_accept, Event.since_concat]
    rcases object_of_accept hb.wellFiled hvalid ho with ⟨e, rfl, rfl⟩ | ⟨hs, o', ho', rfl⟩
    · simp [Object.Uses, Object.ofEntity, Event.Connects, Event.complete?, Event.declares]
    · rw [uses_extend_iff, uses_field?_iff, h.uses s o' ho']
      simp only [hs, not_false_eq_true, true_and, or_and_right, exists_or]
      exact or_comm
  connection := by
    intro x o ho connection
    simp only [ns_accept, Event.since_concat]
    rcases object_of_accept hb.wellFiled hvalid ho with ⟨e, rfl, rfl⟩ | ⟨hx, o', ho', rfl⟩
    · simp [Object.ofEntity, Event.Connects, Event.complete?, Event.declares]
    · rw [← pages_iff_connects]
      cases hpaged : ev.complete?.any fun r => r.pages b.ns x with
      | false => simpa [Object.extend, hx] using h.connection x o' ho' connection
      | true => simp [Object.extend]

/-- A model that is valid in the end was valid all the time. -/
theorem Covered.isValid_foldl {b : Builder} (hb : b.Covered) {before after : List Event}
    (hvalid : ((before ++ after).foldl Builder.accept b).validator.isValid = true) :
    (before.foldl Builder.accept b).validator.isValid = true := by
  induction after using List.reverseRecOn with
  | nil => rwa [List.append_nil] at hvalid
  | append_singleton after ev ih =>
    rw [← List.append_assoc, List.foldl_concat] at hvalid
    exact ih (findings_of_valid (hb.foldl_accept _).wellFiled hvalid).1

/-- In a valid model, all that was accepted took place. -/
theorem Connected.foldl {b : Builder} (h : b.Connected []) (hb : b.Covered) {evs : List Event}
    (hvalid : (evs.foldl Builder.accept b).validator.isValid = true) :
    (evs.foldl Builder.accept b).Connected evs := by
  induction evs using List.reverseRecOn with
  | nil => exact h
  | append_singleton evs ev ih =>
    have hbefore := hb.isValid_foldl hvalid
    rw [List.foldl_concat] at hvalid ⊢
    exact (ih hbefore).accept (hb.foldl_accept evs) hvalid

/-- Where no entity is declared twice, an entity that some event connects another one to has been
connected to since it was declared. -/
theorem Covered.since_of_mem {b : Builder} (hb : b.Covered) (hobjects : b.objects = .empty)
    {evs : List Event} (hvalid : (evs.foldl Builder.accept b).validator.isValid = true)
    (hnodup : (evs.flatMap Event.declares).Nodup) {ev : Event} (hev : ev ∈ evs) {s x : String}
    (hconnects : ev.Connects b.ns s x) :
    Event.Since (fun ev => ∃ s, ev.Connects b.ns s x) x evs := by
  obtain ⟨before, after, rfl⟩ := List.append_of_mem hev
  have hvalid : ((before ++ [ev]).foldl Builder.accept b).validator.isValid = true := by
    rw [← List.singleton_append, ← List.append_assoc] at hvalid
    exact hb.isValid_foldl hvalid
  -- the target was known then, so it had been declared before
  have hdeclared : x ∈ (before ++ [ev]).flatMap Event.declares := by
    have hns := (b.foldl_options (before ++ [ev])).1
    have hknown := ((Connected.of_empty hobjects).foldl hb hvalid).known ev
      (List.mem_append_right _ (List.mem_singleton_self ev)) s x (hns ▸ hconnects)
    have hkeys := hknown.2
    rw [keys_foldl, hobjects, DependencyGraph.mem_foldl_addName] at hkeys
    exact hkeys.resolve_left List.not_mem_nil
  refine ⟨before, ev, after, rfl, ⟨s, hconnects⟩, fun hagain => ?_⟩
  rw [← List.singleton_append, ← List.append_assoc, List.flatMap_append] at hnodup
  exact (List.nodup_append.1 hnodup).2.2 x hdeclared x hagain rfl

/-- Where no entity is declared twice, an entity that another one is connected to has been
connected to since it was declared. -/
theorem Covered.since_of_nodup {b : Builder} (hb : b.Covered) (hobjects : b.objects = .empty)
    {evs : List Event} (hvalid : (evs.foldl Builder.accept b).validator.isValid = true)
    (hnodup : (evs.flatMap Event.declares).Nodup) {s x : String}
    (h : Event.Since (Event.Connects b.ns s x) s evs) :
    Event.Since (fun ev => ∃ s, ev.Connects b.ns s x) x evs := by
  obtain ⟨ev, hev, hconnects⟩ := h.exists_mem
  exact hb.since_of_mem hobjects hvalid hnodup hev hconnects

/-- The objects in emission order are those of the builder. -/
theorem Covered.mem_orderedObjects {b : Builder} (h : b.Covered) {objects : List Object}
    (hobjects : b.orderedObjects = .ok objects) {o : Object} :
    o ∈ objects ↔ ∃ n, b.objects.find? n = some o := by
  obtain ⟨-, order, -, -, hmem, rfl⟩ := h.of_orderedObjects hobjects
  rw [List.mem_filterMap]
  refine exists_congr fun n => and_iff_right_of_imp fun ho => ?_
  exact (hmem n).2 (OrderedMap.mem_keys_of_find? ho)

/-- The connections in use are defined exactly if what took place says so. -/
theorem Connected.defined_iff {b : Builder} {evs : List Event} (h : b.Connected evs)
    (hb : b.Covered) {objects : List Object} (hobjects : b.orderedObjects = .ok objects) :
    ConnectionsDefined objects ↔ ∀ s x, Event.Since (Event.Connects b.ns s x) s evs →
      ∃ y, Naming.connectionName y = Naming.connectionName x ∧
        Event.Since (fun ev => ∃ s, ev.Connects b.ns s y) y evs := by
  constructor
  · intro hdefined s x hsince
    obtain ⟨ev, hev, hconnects⟩ := hsince.exists_mem
    obtain ⟨o, ho⟩ := b.objects.exists_find?_of_mem (h.known ev hev s x hconnects).1
    obtain ⟨f, hf, hkind, htype⟩ := (h.uses s o ho _).2 ⟨x, hsince, rfl⟩
    obtain ⟨o', ho', hconnection⟩ :=
      hdefined o ((hb.mem_orderedObjects hobjects).2 ⟨s, ho⟩) f hf hkind
    obtain ⟨y, hy⟩ := (hb.mem_orderedObjects hobjects).1 ho'
    obtain ⟨hsince', hname⟩ := (h.connection y o' hy _).1 hconnection
    exact ⟨y, hname.trans htype, hsince'⟩
  · intro hall o ho f hf hkind
    obtain ⟨s, hs⟩ := (hb.mem_orderedObjects hobjects).1 ho
    obtain ⟨x, hsince, hname⟩ := (h.uses s o hs f.graphqlType).1 ⟨f, hf, hkind, rfl⟩
    obtain ⟨y, hsame, hsince'⟩ := hall s x hsince
    obtain ⟨ev, hev, s', hconnects⟩ := hsince'.exists_mem
    obtain ⟨o', ho'⟩ := b.objects.exists_find?_of_mem (h.known ev hev s' y hconnects).2
    exact ⟨o', (hb.mem_orderedObjects hobjects).2 ⟨y, ho'⟩,
      (h.connection y o' ho' _).2 ⟨hsince', hsame.trans hname⟩⟩

end Builder

end Schema

/-! ## Main statement -/

/-- After parses in turn, also stopped ones, of which the schema is not refused: an object uses
the connections to entities that its entity was connected to since it was last declared, and has a
connection if some entity was connected to its own since that was last declared. So every
connection in use is that of an object exactly if each entity that another one is connected to has
been connected to since its own last declaration, or one with a connection of the same name. It is
where no entity is declared twice. -/
theorem connections_defined_iff {t : ValidationTables} {options : SchemaOptions}
    {start : Schema.Builder} (hstart : Schema.Builder.ofOptions t options = .ok start)
    (ms : List Model) {objects : List Schema.Object} :
    let b := ms.foldl (fun b m => (m.parseWith b).1) start
    let evs := ms.flatMap Model.delivered
    b.orderedObjects = .ok objects →
      (∀ o ∈ objects, ∀ connection, o.Uses connection ↔
        ∃ x, Event.Since (Event.Connects options.ns o.name x) o.name evs ∧
          Naming.connectionName x = connection) ∧
      (∀ o ∈ objects, ∀ connection, o.connection = some connection ↔
        Event.Since (fun ev => ∃ s, ev.Connects options.ns s o.name) o.name evs ∧
          Naming.connectionName o.name = connection) ∧
      (Schema.ConnectionsDefined objects ↔
        ∀ s x, Event.Since (Event.Connects options.ns s x) s evs →
          ∃ y, Naming.connectionName y = Naming.connectionName x ∧
            Event.Since (fun ev => ∃ s, ev.Connects options.ns s y) y evs) ∧
      ((evs.flatMap Event.declares).Nodup → Schema.ConnectionsDefined objects) := by
  intro b evs hb
  have hfold : b = evs.foldl Schema.Builder.accept start :=
    foldl_parseWith Schema.Builder.handle_eq_ok ms start
  have hcovered : start.Covered := .of_ofOptions hstart
  have hobjects : start.objects = .empty := (Schema.Builder.of_ofOptions hstart).2
  have hns : (evs.foldl Schema.Builder.accept start).ns = options.ns :=
    (start.foldl_options evs).1.trans (Schema.Builder.ns_ofOptions hstart)
  rw [hfold] at hb
  have hfinal := hcovered.foldl_accept evs
  obtain ⟨hvalid, -⟩ := hfinal.of_orderedObjects hb
  have hconnected := (Schema.Builder.Connected.of_empty hobjects).foldl hcovered hvalid
  have hdefined := hconnected.defined_iff hfinal hb
  rw [← hns]
  refine ⟨fun o ho => ?_, fun o ho => ?_, hdefined, fun hnodup => ?_⟩
  · obtain ⟨n, hn⟩ := (hfinal.mem_orderedObjects hb).1 ho
    rw [hfinal.wellNamed n o hn]
    exact hconnected.uses n o hn
  · obtain ⟨n, hn⟩ := (hfinal.mem_orderedObjects hb).1 ho
    rw [hfinal.wellNamed n o hn]
    exact hconnected.connection n o hn
  · refine hdefined.2 fun s x hsince => ⟨x, rfl, ?_⟩
    rw [(start.foldl_options evs).1] at hsince ⊢
    exact hcovered.since_of_nodup hobjects hvalid hnodup hsince

/-- The pets of a person are paged, and the pet is declared again by a model without the person:
the object of the person still has its field, but the pet is without a connection. -/
theorem connections_outlive_targets :
    let key := AttributeDecl.full (AttributeConfig.empty.withFlag "in_key_hash" (.bool true))
    let keyed := Entity.empty.withAttribute "id" key
    let paged : Annotation := .ofParts none (some .connection)
    let pets := ReferenceConfig.withAnnotation (.ofTarget (.text "Pet")) "graphql" paged
    let first := (Model.empty.insert "Person" (keyed.withReference "pets" (.full pets))).insert
      "Pet" keyed
    let ms := [first, Model.empty.insert "Pet" keyed]
    let start : Schema.Builder := ⟨.ofTables .builtIn, "", "graphql", "__id_unique", .empty⟩
    let b := ms.foldl (fun b m => (m.parseWith b).1) start
    let evs := ms.flatMap Model.delivered
    Schema.Builder.ofOptions .builtIn { SchemaOptions.builtIn with template := some "" } =
        .ok start ∧
      ∃ objects, b.orderedObjects = .ok objects ∧ ¬ Schema.ConnectionsDefined objects ∧
        (∀ o ∈ objects, o.connection = none) ∧
        ∃ s x, Event.Since (Event.Connects "graphql" s x) s evs ∧
          ¬ Event.Since (fun ev => ∃ s, ev.Connects "graphql" s x) x evs := by
  intro key keyed paged pets first ms start b evs
  have hstart : Schema.Builder.ofOptions .builtIn
      { SchemaOptions.builtIn with template := some "" } = .ok start := rfl
  have hrun : (b.orderedObjects.toOption.any fun objects =>
      (∃ o ∈ objects, ∃ f ∈ o.fields, f.kind = .reference .connection) ∧
        ∀ o ∈ objects, o.connection = none) = true := by
    decide +kernel
  cases hobjects : b.orderedObjects with
  | error e => simp [hobjects, Except.toOption] at hrun
  | ok objects =>
    obtain ⟨⟨o, ho, f, hf, hkind⟩, hnone⟩ : (∃ o ∈ objects, ∃ f ∈ o.fields,
        f.kind = .reference .connection) ∧ ∀ o ∈ objects, o.connection = none := by
      simpa only [hobjects, Except.toOption, Option.any_some, decide_eq_true_eq] using hrun
    obtain ⟨-, -, hdefined, -⟩ := connections_defined_iff hstart ms hobjects
    have hundefined : ¬ Schema.ConnectionsDefined objects := by
      intro h
      obtain ⟨o', ho', hconnection⟩ := h o ho f hf hkind
      rw [hnone o' ho'] at hconnection
      cases hconnection
    refine ⟨hstart, objects, rfl, hundefined, hnone, ?_⟩
    by_contra hall
    refine hundefined (hdefined.2 fun s x hsince => ⟨x, rfl, ?_⟩)
    by_contra hlost
    exact hall ⟨s, x, hsince, hlost⟩

end EntityModel
