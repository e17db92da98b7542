import EntityModel.Parse.Dispatch
import EntityModel.Proofs.OrderedMap

/-!
# The events of a parse

Two views of `Model.events`. As a whole, a parse with names everywhere hands over all events, so
that a consumer whose handler does not fail then ends in the fold of it (`feed_eq_foldl`). Entity by
entity, the events about one entity are its declaration, its attributes and its references, as if it
stood alone (`Model.filter_passes`), and there are no others in the passes (`Model.mem_passes`).
-/

namespace EntityModel

/-- The entity that an event is about. -/
def Event.entity? : Event → Option String
  | .declareEntity name _ => some name
  | .declareAttribute entity _ _ | .declareReference entity _ _ => some entity
  | .finish => none

/-- The entities that an event declares. -/
def Event.declares : Event → List String
  | .declareEntity name _ => [name]
  | _ => []

/-- The element that an event is about has an empty name. -/
def Event.Unnamed : Event → Prop
  | .declareEntity name _ => name = ""
  | .declareAttribute _ name _ | .declareReference _ name _ => name = ""
  | .finish => False

/-- An event that is delivered is not about an element without a name. -/
theorem Event.not_unnamed {ev : Event} (h : ev.nameError? = none) : ¬ ev.Unnamed := by
  cases ev <;> grind [nameError?, Unnamed]

namespace Model

/-- No entity, attribute or reference of the model has an empty name. -/
def Named (m : Model) : Prop :=
  ∀ e ∈ m.entities.entries, e.1 ≠ "" ∧ "" ∉ e.2.attributes.keys ∧ "" ∉ e.2.references.keys

instance (m : Model) : Decidable m.Named :=
  inferInstanceAs (Decidable (∀ e ∈ m.entities.entries,
    e.1 ≠ "" ∧ "" ∉ e.2.attributes.keys ∧ "" ∉ e.2.references.keys))

/-! ## The passes -/

/-- The events of the first pass. -/
def entityEvents (m : Model) : List Event :=
  m.entities.entries.map fun e => .declareEntity e.1 e.2

/-- The events of the second pass. -/
def attributeEvents (m : Model) : List Event :=
  m.entities.entries.flatMap fun e => e.2.attributeEvents e.1

/-- The events of the third pass. -/
def referenceEvents (m : Model) : List Event :=
  m.entities.entries.flatMap fun e => e.2.referenceEvents e.1

/-- The events of the second and the third pass, about elements of entities. -/
def elementEvents (m : Model) : List Event := m.attributeEvents ++ m.referenceEvents

/-- The events of a model are those of the three passes and the end. -/
theorem events_eq (m : Model) :
    m.events = m.entityEvents ++ m.elementEvents ++ [.finish] := by
  rw [elementEvents, ← List.append_assoc]
  rfl

/-- The events of a model, pass by pass. -/
theorem events_eq_passes (m : Model) :
    m.events = m.entityEvents ++ m.attributeEvents ++ m.referenceEvents ++ [.finish] := rfl

/-- An event of the first pass declares an entity. -/
theorem mem_entityEvents {m : Model} {ev : Event} :
    ev ∈ m.entityEvents ↔ ∃ n e, m.find? n = some e ∧ ev = .declareEntity n e := by
  simp only [entityEvents, List.mem_map]
  constructor
  · rintro ⟨⟨n, e⟩, he, rfl⟩
    exact ⟨n, e, m.entities.mem_entries.1 he, rfl⟩
  · rintro ⟨n, e, he, rfl⟩
    exact ⟨(n, e), m.entities.mem_entries.2 he, rfl⟩

/-- An event of the second pass declares an attribute of an entity. -/
theorem mem_attributeEvents {m : Model} {ev : Event} :
    ev ∈ m.attributeEvents ↔ ∃ n e a d, m.find? n = some e ∧ e.attributes.find? a = some d ∧
      ev = .declareAttribute n a d.config := by
  simp only [attributeEvents, Entity.attributeEvents, List.mem_flatMap, List.mem_map]
  constructor
  · rintro ⟨⟨n, e⟩, he, ⟨a, d⟩, hd, rfl⟩
    exact ⟨n, e, a, d, m.entities.mem_entries.1 he, e.attributes.mem_entries.1 hd, rfl⟩
  · rintro ⟨n, e, a, d, he, hd, rfl⟩
    exact ⟨(n, e), m.entities.mem_entries.2 he, (a, d), e.attributes.mem_entries.2 hd, rfl⟩

/-- An event of the third pass declares a reference of an entity. -/
theorem mem_referenceEvents {m : Model} {ev : Event} :
    ev ∈ m.referenceEvents ↔ ∃ n e r d, m.find? n = some e ∧ e.references.find? r = some d ∧
      ev = .declareReference n r d.config := by
  simp only [referenceEvents, Entity.referenceEvents, List.mem_flatMap, List.mem_map]
  constructor
  · rintro ⟨⟨n, e⟩, he, ⟨r, d⟩, hd, rfl⟩
    exact ⟨n, e, r, d, m.entities.mem_entries.1 he, e.references.mem_entries.1 hd, rfl⟩
  · rintro ⟨n, e, r, d, he, hd, rfl⟩
    exact ⟨(n, e), m.entities.mem_entries.2 he, (r, d), e.references.mem_entries.2 hd, rfl⟩

/-- An event of a model is of one of the passes, or the end. -/
theorem mem_events {m : Model} {ev : Event} :
    ev ∈ m.events ↔ (∃ n e, m.find? n = some e ∧ ev = .declareEntity n e) ∨
      (∃ n e a d, m.find? n = some e ∧ e.attributes.find? a = some d ∧
        ev = .declareAttribute n a d.config) ∨
      (∃ n e r d, m.find? n = some e ∧ e.references.find? r = some d ∧
        ev = .declareReference n r d.config) ∨ ev = .finish := by
  rw [events_eq_passes, List.mem_append, List.mem_append, List.mem_append, mem_entityEvents,
    mem_attributeEvents, mem_referenceEvents, List.mem_singleton, or_assoc, or_assoc]

/-- The events of a model declare its entities. -/
theorem flatMap_declares (m : Model) : m.events.flatMap Event.declares = m.names := by
  have hentities : m.entityEvents.flatMap Event.declares = m.names := by
    rw [entityEvents, List.flatMap_map]
    exact List.map_eq_flatMap.symm
  have helements : m.elementEvents.flatMap Event.declares = [] := by
    refine List.flatMap_eq_nil_iff.2 fun ev hev => ?_
    rcases List.mem_append.1 hev with h | h
    · obtain ⟨n, e, a, d, -, -, rfl⟩ := mem_attributeEvents.1 h
      rfl
    · obtain ⟨n, e, r, d, -, -, rfl⟩ := mem_referenceEvents.1 h
      rfl
  rw [events_eq, List.flatMap_append, List.flatMap_append, hentities, helements, List.append_nil]
  exact List.append_nil _

/-! ## Parses of named models -/

/-- The events of a named model are about named elements. -/
theorem Named.nameError?_eq_none {m : Model} (h : m.Named) :
    ∀ ev ∈ m.events, ev.nameError? = none := by
  intro ev hev
  rcases mem_events.1 hev with
    ⟨n, e, he, rfl⟩ | ⟨n, e, a, d, he, hd, rfl⟩ | ⟨n, e, r, d, he, hd, rfl⟩ | rfl
  · obtain ⟨hn, -, -⟩ := h (n, e) (m.entities.mem_entries.2 he)
    exact if_neg hn
  · obtain ⟨hn, ha, -⟩ := h (n, e) (m.entities.mem_entries.2 he)
    have ha : a ≠ "" := fun h => ha (h ▸ OrderedMap.mem_keys_of_find? hd)
    rw [Event.nameError?, if_neg hn, if_neg ha]
  · obtain ⟨hn, -, hr⟩ := h (n, e) (m.entities.mem_entries.2 he)
    have hr : r ≠ "" := fun h => hr (h ▸ OrderedMap.mem_keys_of_find? hd)
    rw [Event.nameError?, if_neg hn, if_neg hr]
  · rfl

/-- Where the events of the first pass are about named elements, all entities have names. -/
theorem ne_empty_of_entityEvents {m : Model} (h : ∀ ev ∈ m.entityEvents, ev.nameError? = none) :
    ∀ e ∈ m.entities.entries, e.1 ≠ "" :=
  fun _ he => Event.not_unnamed (h _ (List.mem_map_of_mem he))

/-- Where the events of the second pass are about named elements, all attributes have names. -/
theorem notMem_keys_of_attributeEvents {m : Model}
    (h : ∀ ev ∈ m.attributeEvents, ev.nameError? = none) :
    ∀ e ∈ m.entities.entries, "" ∉ e.2.attributes.keys := by
  intro e he hempty
  obtain ⟨d, hd⟩ := e.2.attributes.exists_find?_of_mem hempty
  have hev := mem_attributeEvents.2 ⟨e.1, e.2, "", d, m.entities.mem_entries.1 he, hd, rfl⟩
  exact Event.not_unnamed (h _ hev) rfl

/-- Where the events of the third pass are about named elements, all references have names. -/
theorem notMem_keys_of_referenceEvents {m : Model}
    (h : ∀ ev ∈ m.referenceEvents, ev.nameError? = none) :
    ∀ e ∈ m.entities.entries, "" ∉ e.2.references.keys := by
  intro e he hempty
  obtain ⟨d, hd⟩ := e.2.references.exists_find?_of_mem hempty
  have hev := mem_referenceEvents.2 ⟨e.1, e.2, "", d, m.entities.mem_entries.1 he, hd, rfl⟩
  exact Event.not_unnamed (h _ hev) rfl

/-- A model is named exactly if no event about it is about an element without a name. -/
theorem named_iff {m : Model} : m.Named ↔ ∀ ev ∈ m.events, ev.nameError? = none := by
  refine ⟨Named.nameError?_eq_none, fun h e he => ?_⟩
  simp only [events_eq_passes, List.mem_append, or_imp, forall_and] at h
  obtain ⟨⟨⟨hentities, hattributes⟩, hreferences⟩, -⟩ := h
  exact ⟨ne_empty_of_entityEvents hentities e he,
    notMem_keys_of_attributeEvents hattributes e he,
    notMem_keys_of_referenceEvents hreferences e he⟩

end Model

/-- A consumer that handles every event about a named element takes all events. -/
theorem feed_eq_foldl {σ : Type} [Consumer σ] {accept : σ → Event → σ}
    (haccept : ∀ c ev, ev.nameError? = none → Consumer.handle c ev = .ok (accept c ev))
    {evs : List Event} (hevs : ∀ ev ∈ evs, ev.nameError? = none) (c : σ) :
    feed evs c = (evs.foldl accept c, none) := by
  induction evs generalizing c with
  | nil => rfl
  | cons ev evs ih =>
    have hev := hevs ev (List.mem_cons_self ..)
    have hrest : ∀ ev ∈ evs, ev.nameError? = none := fun ev h => hevs ev (List.mem_cons_of_mem _ h)
    simp only [feed, hev, haccept c ev hev]
    exact ih hrest (accept c ev)

/-! ## The events about one entity -/

/-- The events about an entity are about it. -/
theorem Entity.entity?_of_mem_events {n : String} {e : Entity} {ev : Event} (h : ev ∈ e.events n) :
    ev.entity? = some n := by
  rcases List.mem_cons.1 h with rfl | h
  · rfl
  · rcases List.mem_append.1 h with h | h
    · obtain ⟨a, -, rfl⟩ := List.mem_map.1 h
      rfl
    · obtain ⟨r, -, rfl⟩ := List.mem_map.1 h
      rfl

/-- Of events that are listed entity by entity, those about one entity are its own. -/
theorem filter_flatMap_entity {es : List (String × Entity)} (hes : (es.map Prod.fst).Nodup)
    {f : String × Entity → List Event} (hf : ∀ e, ∀ ev ∈ f e, ev.entity? = some e.1)
    {n : String} {e : Entity} (he : (n, e) ∈ es) :
    ((es.flatMap f).filter fun ev => ev.entity? = some n) = f (n, e) := by
  induction es with
  | nil => cases he
  | cons e' rest ih =>
    rw [List.map_cons, List.nodup_cons] at hes
    rw [List.flatMap_cons, List.filter_append]
    rcases List.mem_cons.1 he with rfl | hrest
    · have hown : (f (n, e)).filter (fun ev => ev.entity? = some n) = f (n, e) :=
        List.filter_eq_self.2 fun ev hev => by simpa using hf (n, e) ev hev
      have hother : (rest.flatMap f).filter (fun ev => ev.entity? = some n) = [] := by
        refine List.filter_eq_nil_iff.2 fun ev hev => ?_
        obtain ⟨e'', he'', hev⟩ := List.mem_flatMap.1 hev
        rw [hf e'' ev hev]
        have hne : e''.1 ≠ n := fun h => hes.1 (List.mem_map.2 ⟨e'', he'', h⟩)
        simpa using hne
      rw [hown, hother, List.append_nil]
    · have hnone : (f e').filter (fun ev => ev.entity? = some n) = [] := by
        refine List.filter_eq_nil_iff.2 fun ev hev => ?_
        rw [hf e' ev hev]
        have hne : e'.1 ≠ n := fun h => hes.1 (h ▸ List.mem_map_of_mem (f := Prod.fst) hrest)
        simpa using hne
      rw [hnone, ih hes.2 hrest, List.nil_append]

namespace Model

variable {m : Model} {n : String} {e : Entity}

/-- The first pass declares an entity once. -/
theorem filter_entityEvents (he : m.find? n = some e) :
    (m.entityEvents.filter fun ev => ev.entity? = some n) = [.declareEntity n e] := by
  rw [entityEvents, List.map_eq_flatMap]
  refine filter_flatMap_entity m.entities.nodup_keys ?_ (m.entities.mem_entries.2 he)
  intro _ ev hev
  rw [List.mem_singleton.1 hev]
  rfl

/-- The second pass declares the attributes of an entity. -/
theorem filter_attributeEvents (he : m.find? n = some e) :
    (m.attributeEvents.filter fun ev => ev.entity? = some n) = e.attributeEvents n := by
  refine filter_flatMap_entity (f := fun e => e.2.attributeEvents e.1) m.entities.nodup_keys ?_
    (m.entities.mem_entries.2 he)
  intro _ ev hev
  obtain ⟨a, -, rfl⟩ := List.mem_map.1 hev
  rfl

/-- The third pass declares the references of an entity. -/
theorem filter_referenceEvents (he : m.find? n = some e) :
    (m.referenceEvents.filter fun ev => ev.entity? = some n) = e.referenceEvents n := by
  refine filter_flatMap_entity (f := fun e => e.2.referenceEvents e.1) m.entities.nodup_keys ?_
    (m.entities.mem_entries.2 he)
  intro _ ev hev
  obtain ⟨r, -, rfl⟩ := List.mem_map.1 hev
  rfl

/-- In the passes, the events about an entity of a model are those of the entity alone. -/
theorem filter_passes (he : m.find? n = some e) :
    ((m.entityEvents ++ m.elementEvents).filter fun ev => ev.entity? = some n) = e.events n := by
  rw [elementEvents, List.filter_append, List.filter_append, filter_entityEvents he,
    filter_attributeEvents he, filter_referenceEvents he]
  rfl

/-- The events about an entity come in the passes of its model. -/
theorem mem_passes {ev : Event} :
    ev ∈ m.entityEvents ++ m.elementEvents ↔ ∃ n e, m.find? n = some e ∧ ev ∈ e.events n := by
  -- Entity by entity and pass by pass, the same events stand in two orders.
  have hperm : (m.entities.entries.flatMap fun e => e.2.events e.1).Perm
      (m.entityEvents ++ m.elementEvents) := by
    have helements := (List.flatMap_append_perm m.entities.entries
      (fun e => e.2.attributeEvents e.1) fun e => e.2.referenceEvents e.1).symm
    have hall := (List.flatMap_append_perm m.entities.entries
      (fun e => [Event.declareEntity e.1 e.2]) fun e =>
        e.2.attributeEvents e.1 ++ e.2.referenceEvents e.1).symm
    rw [entityEvents, List.map_eq_flatMap]
    exact hall.trans (helements.append_left _)
  rw [← hperm.mem_iff, List.mem_flatMap]
  simp only [Prod.exists, OrderedMap.mem_entries]
  rfl

/-- The events about an entity of a named model are about named elements. -/
theorem Named.nameError?_of_mem_entity (h : m.Named) (he : m.find? n = some e) :
    ∀ ev ∈ e.events n, ev.nameError? = none := by
  intro ev hev
  refine h.nameError?_eq_none ev ?_
  rw [m.events_eq]
  exact List.mem_append_left _ (mem_passes.2 ⟨n, e, he, hev⟩)

end Model

end EntityModel
