import EntityModel.Proofs.Parse.Events

/-!
# Histories of a consumer

A consumer keeps its state from parse to parse, and its handlers may also be called out of turn. A
single call is `Consumer.call`, several parses are `Model.parseInTurn` where each has to succeed,
and a parse that is stopped has delivered the events before the first one about an element without
a name (`feed_eq_takeWhile`).
-/

namespace EntityModel

section
variable {σ : Type} [Consumer σ]

/-- What a call of a handler makes of a consumer: where it fails, the consumer stays as it was. -/
def Consumer.call (c : σ) (ev : Event) : σ :=
  match Consumer.handle c ev with
  | .ok c' => c'
  | .error _ => c

/-- Parses models one after the other with a single consumer, until a parse fails. -/
def Model.parseInTurn : List Model → σ → σ × Option FatalError
  | [], c => (c, none)
  | m :: ms, c =>
    match m.parseWith c with
    | (c', none) => parseInTurn ms c'
    | (c', some f) => (c', some f)

/-- The events of a model before the first about an element without a name. -/
def Model.delivered (m : Model) : List Event := m.events.takeWhile fun ev => ev.nameError?.isNone

/-- A consumer that handles every event about a named element takes the events before the first
about an element without a name, which is what stops it. -/
theorem feed_eq_takeWhile {accept : σ → Event → σ}
    (haccept : ∀ c ev, ev.nameError? = none → Consumer.handle c ev = .ok (accept c ev))
    (evs : List Event) (c : σ) :
    feed evs c = ((evs.takeWhile fun ev => ev.nameError?.isNone).foldl accept c,
      evs.findSome? Event.nameError?) := by
  induction evs generalizing c with
  | nil => rfl
  | cons ev evs ih =>
    cases hev : ev.nameError? with
    | some f => simp [feed, hev]
    | none => simp [feed, hev, haccept c ev hev, ih]

/-- A model that is parsed without a failure is named, and all its events are taken. -/
theorem Model.of_parseWith {accept : σ → Event → σ}
    (haccept : ∀ c ev, ev.nameError? = none → Consumer.handle c ev = .ok (accept c ev))
    {m : Model} {c c' : σ} (h : m.parseWith c = (c', none)) :
    m.Named ∧ c' = m.events.foldl accept c := by
  have hparse := feed_eq_takeWhile haccept m.events c
  rw [← parseWith, h] at hparse
  have hnamed : m.Named :=
    Model.named_iff.2 (List.findSome?_eq_none_iff.1 (congrArg Prod.snd hparse).symm)
  rw [parseWith, feed_eq_foldl haccept hnamed.nameError?_eq_none] at h
  exact ⟨hnamed, (congrArg Prod.fst h).symm⟩

/-- Models that are parsed in turn without a failure are named, and all their events are taken. -/
theorem Model.of_parseInTurn {accept : σ → Event → σ}
    (haccept : ∀ c ev, ev.nameError? = none → Consumer.handle c ev = .ok (accept c ev))
    {ms : List Model} {c c' : σ} (h : Model.parseInTurn ms c = (c', none)) :
    (∀ m ∈ ms, m.Named) ∧ c' = (ms.flatMap Model.events).foldl accept c := by
  induction ms generalizing c with
  | nil =>
    cases h
    exact ⟨List.forall_mem_nil _, rfl⟩
  | cons m ms ih =>
    unfold parseInTurn at h
    rcases hparse : m.parseWith c with ⟨d, _ | f⟩
    · rw [hparse] at h
      obtain ⟨hnamed, rfl⟩ := Model.of_parseWith haccept hparse
      obtain ⟨hms, rfl⟩ := ih h
      refine ⟨List.forall_mem_cons.2 ⟨hnamed, hms⟩, ?_⟩
      rw [List.flatMap_cons, List.foldl_append]
    · rw [hparse] at h
      cases h

/-- The events that parses in turn have delivered, of whatever models, are what a consumer has
taken. -/
theorem foldl_parseWith {accept : σ → Event → σ}
    (haccept : ∀ c ev, ev.nameError? = none → Consumer.handle c ev = .ok (accept c ev))
    (ms : List Model) (c : σ) :
    ms.foldl (fun c m => (m.parseWith c).1) c = (ms.flatMap Model.delivered).foldl accept c := by
  induction ms generalizing c with
  | nil => rfl
  | cons m ms ih =>
    rw [List.foldl_cons, ih, List.flatMap_cons, List.foldl_append, Model.parseWith,
      feed_eq_takeWhile haccept]
    rfl

end

end EntityModel
