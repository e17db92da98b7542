import EntityModel.Proofs.Parse.Calls
import EntityModel.Proofs.Parse.Events

/-!
# The canonical calls of a parse

A parse with several consumers calls handlers in one canonical order, `Model.canonicalCalls`: the
elements pass by pass, each one going to all consumers in their order, and the end. What a parse
calls is that order up to the first handler that fails or the first element without a name
(`parse_calls_canonical`). Whether all of it was called does not tell whether the parse failed
(`calls_whole_of_failure`).
-/

namespace EntityModel

/-! ## Canonical calls -/

/-- The calls that a parse makes of `k` consumers where nothing fails: every entity, then every
attribute of every entity, then every reference of every entity, in declared order and in full form,
each to all consumers in their order, and then the end. -/
def Model.canonicalCalls (m : Model) (k : Nat) : List (Nat × Event) :=
  let toAll (ev : Event) : List (Nat × Event) := (List.range k).map fun i => (i, ev)
  (m.entities.entries.flatMap fun e => toAll (.declareEntity e.1 e.2)) ++
    (m.entities.entries.flatMap fun e => e.2.attributes.entries.flatMap fun a =>
      toAll (.declareAttribute e.1 a.1 a.2.config)) ++
    (m.entities.entries.flatMap fun e => e.2.references.entries.flatMap fun r =>
      toAll (.declareReference e.1 r.1 r.2.config)) ++
    toAll .finish

/-- The canonical calls give each event of the model to all consumers. -/
theorem Model.canonicalCalls_eq (m : Model) (k : Nat) :
    m.canonicalCalls k = callsTo k m.events := by
  simp [canonicalCalls, callsTo, events, Entity.attributeEvents, Entity.referenceEvents,
    List.flatMap_map, List.flatMap_assoc]

/-- The last of the canonical calls gives the end to the last consumer. -/
theorem Model.canonicalCalls_succ (m : Model) (k : Nat) : ∃ before,
    m.canonicalCalls (k + 1) = before ++ [(k, .finish)] ∧ (k, .finish) ∉ before := by
  refine ⟨callsTo (k + 1) (m.entityEvents ++ m.elementEvents) ++
    (List.range k).map fun i => (i, .finish), ?_, ?_⟩
  · have hfinish : callsTo (k + 1) [.finish] =
        ((List.range k).map fun i => (i, .finish)) ++ [(k, .finish)] := by
      simp [callsTo, List.range_succ]
    rw [canonicalCalls_eq, events_eq, callsTo_append, hfinish, List.append_assoc]
  · simp [mem_callsTo, elementEvents, mem_entityEvents, mem_attributeEvents, mem_referenceEvents]

/-! ## Elements without a name -/

/-- A part of a list that does not have an element ends before the element comes. -/
theorem prefix_of_append_eq {α : Type} {l l' before after : List α} {x : α}
    (h : l ++ l' = before ++ x :: after) (hx : x ∉ l) : l <+: before := by
  rcases List.append_eq_append_iff.1 h with ⟨rest, hbefore, -⟩ | ⟨rest, hl, hrest⟩
  · exact ⟨rest, hbefore.symm⟩
  · cases rest with
    | nil =>
      rw [List.append_nil] at hl
      exact hl ▸ List.prefix_rfl
    | cons y rest =>
      obtain ⟨rfl, -⟩ := List.cons.inj hrest
      exact absurd (hl ▸ List.mem_append_right before (List.mem_cons_self ..)) hx

/-- What is fatal about an event: its element has no name. All elements of earlier passes have one
then, and the error is about the entity that the element belongs to. -/
inductive Model.MissingName (m : Model) : Event → FatalError → Prop
  | entity {e : Entity} : ("", e) ∈ m.entities.entries →
      m.MissingName (.declareEntity "" e) .missingEntityName
  | attribute {n : String} {e : Entity} {c : AttributeConfig} :
      (∀ e ∈ m.entities.entries, e.1 ≠ "") →
      (n, e) ∈ m.entities.entries → "" ∈ e.attributes.keys →
      m.MissingName (.declareAttribute n "" c) (.missingAttributeName n)
  | reference {n : String} {e : Entity} {c : ReferenceConfig} :
      (∀ e ∈ m.entities.entries, e.1 ≠ "") →
      (∀ e ∈ m.entities.entries, "" ∉ e.2.attributes.keys) →
      (n, e) ∈ m.entities.entries → "" ∈ e.references.keys →
      m.MissingName (.declareReference n "" c) (.missingReferenceName n)

/-- The first event about an element without a name is fatal with the error of its kind. -/
theorem Model.missingName_of_nameError? {m : Model} {before after : List Event} {ev : Event}
    {f : FatalError} (hevents : m.events = before ++ ev :: after)
    (hbefore : ∀ ev' ∈ before, ev'.nameError? = none) (hf : ev.nameError? = some f) :
    m.MissingName ev f := by
  have hev : ev ∈ m.events := hevents ▸ List.mem_append_right before (List.mem_cons_self ..)
  -- a pass without the event is over when its turn comes, and all its elements have names
  have hpassed : ∀ pass rest, m.events = pass ++ rest → ev ∉ pass →
      ∀ ev' ∈ pass, ev'.nameError? = none := fun pass rest hpass hnot ev' hev' =>
    hbefore ev' ((prefix_of_append_eq (hpass.symm.trans hevents) hnot).subset hev')
  have hpasses : m.events = m.entityEvents ++ (m.elementEvents ++ [.finish]) := by
    rw [events_eq, List.append_assoc]
  have hpasses' : m.events =
      (m.entityEvents ++ m.attributeEvents) ++ (m.referenceEvents ++ [.finish]) := by
    rw [events_eq_passes, List.append_assoc]
  rcases mem_events.1 hev with
    ⟨n, e, he, rfl⟩ | ⟨n, e, a, d, he, hd, rfl⟩ | ⟨n, e, r, d, he, hd, rfl⟩ | rfl
  · obtain ⟨rfl, rfl⟩ : n = "" ∧ .missingEntityName = f := by
      simpa [Event.nameError?] using hf
    exact .entity (m.entities.mem_entries.2 he)
  · have he := m.entities.mem_entries.2 he
    have hentities := ne_empty_of_entityEvents
      (hpassed _ _ hpasses (by simp [mem_entityEvents]))
    obtain ⟨rfl, rfl⟩ : a = "" ∧ .missingAttributeName n = f := by
      simpa [Event.nameError?, hentities _ he] using hf
    exact .attribute hentities he (OrderedMap.mem_keys_of_find? hd)
  · have he := m.entities.mem_entries.2 he
    have hnamed := hpassed _ _ hpasses' (by simp [mem_entityEvents, mem_attributeEvents])
    have hentities := ne_empty_of_entityEvents fun ev' h => hnamed ev' (List.mem_append_left _ h)
    have hattributes := notMem_keys_of_attributeEvents
      fun ev' h => hnamed ev' (List.mem_append_right _ h)
    obtain ⟨rfl, rfl⟩ : r = "" ∧ .missingReferenceName n = f := by
      simpa [Event.nameError?, hentities _ he] using hf
    exact .reference hentities hattributes he (OrderedMap.mem_keys_of_find? hd)
  · cases hf

/-! ## Main statement -/

section
variable {σ : Type} [Consumer σ]

/-- A run of a parse in canonical order. -/
structure Model.CanonicalRun (m : Model) (cs : List σ) (r : Run σ) : Prop where
  /-- The calls are canonical from the first on. -/
  calls_canonical : r.calls <+: m.canonicalCalls cs.length
  /-- No call is about an element without a name. -/
  calls_named : ∀ call ∈ r.calls, ¬ call.2.Unnamed
  /-- All canonical calls are made if nothing fails. Otherwise they are made only if there are none,
  or if it is the last one that fails. -/
  calls_whole : r.calls = m.canonicalCalls cs.length ↔
    r.failure = none ∨ cs = [] ∨ r.calls.getLast? = some (cs.length - 1, .finish)
  /-- Without a failure, all elements have names and all calls are taken. -/
  completed : r.failure = none → m.Named ∧ Takes cs r.calls r.consumers
  /-- A failure is that of the last call, the ones before it being taken, or that of the first
  element without a name, all earlier elements having been taken by all consumers. -/
  failed : ∀ f, r.failure = some f →
    (∃ taken i ev c, r.calls = taken ++ [(i, ev)] ∧ Takes cs taken r.consumers ∧
      r.consumers[i]? = some c ∧ Consumer.handle c ev = .error f) ∨
    ∃ before ev after, m.events = before ++ ev :: after ∧ (∀ ev' ∈ before, ¬ ev'.Unnamed) ∧
      m.MissingName ev f ∧ r.calls = callsTo cs.length before ∧ Takes cs r.calls r.consumers

/-- First calls that end with the last of the canonical calls are all of them. -/
theorem Model.eq_canonicalCalls_iff {m : Model} {k : Nat} {calls : List (Nat × Event)}
    (h : calls <+: m.canonicalCalls k) :
    calls = m.canonicalCalls k ↔ k = 0 ∨ calls.getLast? = some (k - 1, .finish) := by
  cases k with
  | zero =>
    have hnil : m.canonicalCalls 0 = [] := by simp [canonicalCalls]
    rw [hnil] at h ⊢
    simpa using List.prefix_nil.1 h
  | succ k =>
    obtain ⟨before, hwhole, hnot⟩ := m.canonicalCalls_succ k
    rw [hwhole] at h ⊢
    constructor
    · rintro rfl
      exact .inr (List.getLast?_concat ..)
    · rintro (hzero | hlast)
      · cases hzero
      · refine (List.prefix_concat_iff.1 h).resolve_right fun hbefore => hnot ?_
        exact hbefore.subset (List.mem_of_getLast? hlast)

/-- What a parse calls is the canonical order up to its failure. -/
theorem parse_calls_canonical (m : Model) (cs : List σ) : m.CanonicalRun cs (m.parse cs) := by
  have houtcome : Outcome m.events cs (m.parse cs) := dispatch_outcome m.events cs
  generalize m.parse cs = r at houtcome
  obtain ⟨before, ⟨after, hevents⟩, hbefore, hcalls⟩ := houtcome.calls_planned
  have hcanonical : r.calls <+: m.canonicalCalls cs.length := by
    rw [m.canonicalCalls_eq, ← hevents, callsTo_append]
    exact hcalls.trans (List.prefix_append ..)
  refine ⟨hcanonical, ?named, ?whole, ?completed, ?failed⟩
  case named =>
    intro call hcall
    exact Event.not_unnamed (hbefore call.2 (mem_callsTo.1 (hcalls.subset hcall)).2)
  case whole =>
    have hcompleted : r.failure = none → r.calls = m.canonicalCalls cs.length := fun hr =>
      (houtcome.completed hr).2.1.trans (m.canonicalCalls_eq cs.length).symm
    have hiff := Model.eq_canonicalCalls_iff hcanonical
    rw [List.length_eq_zero_iff] at hiff
    exact ⟨fun h => .inr (hiff.1 h), fun h => h.elim hcompleted hiff.2⟩
  case completed =>
    intro hr
    obtain ⟨hnamed, -, htaken⟩ := houtcome.completed hr
    exact ⟨Model.named_iff.2 hnamed, htaken⟩
  case failed =>
    intro f hr
    rcases houtcome.failed hr with
      hhandler | ⟨before, ev, after, hevents, hbefore, hf, hcalls, htaken⟩
    · exact .inl hhandler
    · exact .inr ⟨before, ev, after, hevents, fun ev' h => Event.not_unnamed (hbefore ev' h),
        Model.missingName_of_nameError? hevents hbefore hf, hcalls, htaken⟩

end

/-- A consumer that refuses one event. -/
structure Refuser where
  refused : Event

instance : Consumer Refuser where
  name _ := "refuser"
  handle c ev := if ev = c.refused then .error (.missingOption "refuser" "event") else .ok c
  errors _ := .empty

/-- A parse that fails may have made all calls: the last consumer may refuse the end, and without
consumers there is nothing to call before an element without a name. -/
theorem calls_whole_of_failure :
    let m := Model.empty.insert "Person" Entity.empty
    let unnamed := Model.empty.insert "" Entity.empty
    let refuser : Refuser := ⟨.finish⟩
    ¬ ((m.parse [refuser]).calls = m.canonicalCalls 1 ↔ (m.parse [refuser]).failure = none) ∧
      ¬ ((unnamed.parse ([] : List Refuser)).calls = unnamed.canonicalCalls 0 ↔
        (unnamed.parse ([] : List Refuser)).failure = none) := by
  decide

end EntityModel
