import EntityModel.Proofs.Validator.Targets

/-!
# What a parse delivers

A parse may be stopped at any element without a name. Up to then it has delivered the first events
of its model, which are the events of a `Delivery`: entities are declared, then elements of these
entities, and the end comes last, if it comes. What the events about an entity make of something
that starts anew with its declaration, they make of it again (`Delivery.foldl_about`).
-/

namespace EntityModel

/-- Events as a parse delivers them until it ends or is stopped: declarations of entities, then
elements of these entities, each reference once, and then the end, if the parse gets there. -/
structure Delivery where
  entities : List (String × Entity)
  elements : List Event
  ended : Bool
  elementOf : ∀ ev ∈ elements, ev.ElementOf (entities.map Prod.fst)
  distinct : elements.Pairwise fun a b => ∀ key, a.reference? = some key → b.reference? ≠ some key

namespace Delivery

variable (d : Delivery)

/-- The names of the entities declared. -/
def names : List String := d.entities.map Prod.fst

/-- The declarations of the entities. -/
def declarations : List Event := d.entities.map fun e => .declareEntity e.1 e.2

/-- The end, if the parse gets there. -/
def ending : List Event := if d.ended then [.finish] else []

/-- All events. -/
def events : List Event := d.declarations ++ d.elements ++ d.ending

/-- The end is no event about an entity. -/
theorem entity?_of_mem_ending {ev : Event} (h : ev ∈ d.ending) : ev.entity? = none := by
  unfold ending at h
  split at h
  · rw [List.mem_singleton.1 h]
    rfl
  · cases h

/-- The events are about the entities declared. -/
theorem mem_names_of_entity? {ev : Event} (h : ev ∈ d.events) {n : String}
    (hn : ev.entity? = some n) : n ∈ d.names := by
  rw [events, List.mem_append, List.mem_append] at h
  rcases h with (h | h) | h
  · obtain ⟨e, he, rfl⟩ := List.mem_map.1 h
    cases hn
    exact List.mem_map_of_mem he
  · exact (d.elementOf ev h).mem_of_entity? hn
  · rw [d.entity?_of_mem_ending h] at hn
    cases hn

/-- The events about an entity make again what they made, if its declaration starts it anew. -/
theorem foldl_about {α : Type} {after : α → Event → α}
    (hafter : ∀ a a' n e, after a (.declareEntity n e) = after a' (.declareEntity n e))
    (n : String) (a : α) :
    let about := d.events.filter fun ev => ev.entity? = some n
    about.foldl after (about.foldl after a) = about.foldl after a := by
  intro about
  by_cases hn : n ∈ d.names
  · obtain ⟨e, he, rfl⟩ := List.mem_map.1 hn
    have hdeclared : Event.declareEntity e.1 e.2 ∈ about := by
      refine List.mem_filter.2 ⟨?_, by simp [Event.entity?]⟩
      exact List.mem_append_left _ (List.mem_append_left _ (List.mem_map_of_mem he))
    obtain ⟨before, rest, hsplit⟩ := List.append_of_mem hdeclared
    rw [hsplit]
    simp only [List.foldl_append, List.foldl_cons]
    exact congrArg (rest.foldl after) (hafter ..)
  · have hnone : about = [] := List.filter_eq_nil_iff.2 fun ev hev h =>
      hn (d.mem_names_of_entity? hev (by simpa using h))
    rw [hnone]
    rfl

end Delivery

/-- The first events of a model are those of a delivery. -/
theorem Model.exists_delivery {m : Model} {evs : List Event} (h : evs <+: m.events) :
    ∃ d : Delivery, d.events = evs := by
  rw [events_eq, List.prefix_concat_iff] at h
  rcases h with rfl | h
  · -- the parse gets to its end
    exact ⟨⟨m.entities.entries, m.elementEvents, true,
      fun _ hev => m.elementOf_of_mem_elementEvents hev, m.pairwise_elementEvents⟩, rfl⟩
  · rcases List.prefix_or_prefix_of_prefix h (List.prefix_append ..) with hfirst | ⟨elements, rfl⟩
    · -- it is stopped in the first pass
      obtain ⟨entities, -, rfl⟩ := List.prefix_map_iff.1 hfirst
      refine ⟨⟨entities, [], false, List.forall_mem_nil _, .nil⟩, ?_⟩
      simp [Delivery.events, Delivery.declarations, Delivery.ending]
    · -- it is stopped among the elements
      have helements := (List.prefix_append_right_inj _).1 h
      refine ⟨⟨m.entities.entries, elements, false, fun _ hev =>
        m.elementOf_of_mem_elementEvents (helements.subset hev),
        m.pairwise_elementEvents.sublist helements.sublist⟩, ?_⟩
      simp [Delivery.events, Delivery.declarations, Delivery.ending, entityEvents]

end EntityModel
