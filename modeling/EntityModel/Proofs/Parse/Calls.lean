import EntityModel.Parse.Dispatch

/-!
# The calls of a delivery

Events that are delivered to several consumers become calls of their handlers. `Takes` says of calls
that no handler fails at them, and what they make of the consumers; `Performs`, how a run with
planned calls ends. A delivery performs the calls that give every event to all consumers, up to the
first event about an element without a name (`dispatch_outcome`).
-/

namespace EntityModel

section
variable {σ : Type} [Consumer σ]

/-! ## Calls one after the other -/

/-- The calls are taken one after the other, each by the consumer at its place, and change the
consumers from the first to the second list. -/
inductive Takes : List σ → List (Nat × Event) → List σ → Prop
  | nil {cs : List σ} : Takes cs [] cs
  | cons {cs cs' : List σ} {c c' : σ} {i : Nat} {ev : Event} {calls : List (Nat × Event)} :
      cs[i]? = some c → Consumer.handle c ev = .ok c' → Takes (cs.set i c') calls cs' →
      Takes cs ((i, ev) :: calls) cs'

/-- Calls that are taken in parts. -/
theorem Takes.append {cs cs' cs'' : List σ} {calls calls' : List (Nat × Event)}
    (h : Takes cs calls cs') (h' : Takes cs' calls' cs'') : Takes cs (calls ++ calls') cs'' := by
  induction h with
  | nil => exact h'
  | cons hc hhandle _ ih => exact .cons hc hhandle (ih h')

/-- Calls add and remove no consumers. -/
theorem Takes.length_eq {cs cs' : List σ} {calls : List (Nat × Event)} (h : Takes cs calls cs') :
    cs'.length = cs.length := by
  induction h with
  | nil => rfl
  | cons _ _ _ ih => rw [ih, List.length_set]

/-- How a run with planned calls ends: all are taken, or the first that fails is the last made. -/
inductive Performs (cs : List σ) (plan : List (Nat × Event)) : Run σ → Prop
  | all {cs' : List σ} : Takes cs plan cs' → Performs cs plan ⟨cs', plan, none⟩
  | stopped {cs' : List σ} {taken rest : List (Nat × Event)} {i : Nat} {ev : Event} {c : σ}
      {f : FatalError} : plan = taken ++ (i, ev) :: rest → Takes cs taken cs' →
      cs'[i]? = some c → Consumer.handle c ev = .error f →
      Performs cs plan ⟨cs', taken ++ [(i, ev)], some f⟩

namespace Performs

variable {cs cs' : List σ} {plan plan' calls calls' : List (Nat × Event)}

/-- A run that has stopped does not get to what is planned later. -/
theorem append_of_failed {f : FatalError} (h : Performs cs plan ⟨cs', calls, some f⟩)
    (plan' : List (Nat × Event)) : Performs cs (plan ++ plan') ⟨cs', calls, some f⟩ := by
  cases h with
  | @stopped _ taken rest i ev c _ hplan htaken hc hfail =>
    have hplan' : plan ++ plan' = taken ++ (i, ev) :: (rest ++ plan') := by
      rw [hplan, List.append_assoc, List.cons_append]
    exact .stopped hplan' htaken hc hfail

/-- A run in which all calls are taken goes on with what is planned later. -/
theorem append {r : Run σ} (h : Performs cs plan ⟨cs', calls, none⟩)
    (h' : Performs cs' plan' r) :
    Performs cs (plan ++ plan') ⟨r.consumers, calls ++ r.calls, r.failure⟩ := by
  cases h with
  | all htaken =>
    cases h' with
    | all htaken' => exact .all (htaken.append htaken')
    | @stopped _ taken rest i ev c f hplan htaken' hc hfail =>
      have hplan' : plan ++ plan' = (plan ++ taken) ++ (i, ev) :: rest := by
        rw [hplan, List.append_assoc]
      rw [← List.append_assoc]
      exact .stopped hplan' (htaken.append htaken') hc hfail

/-- A run makes no calls but those planned, in their order. -/
theorem calls_planned {r : Run σ} (h : Performs cs plan r) : r.calls <+: plan := by
  cases h with
  | all _ => exact List.prefix_rfl
  | @stopped _ taken rest i ev c f hplan _ _ _ =>
    refine ⟨rest, ?_⟩
    rw [hplan, List.append_assoc, List.singleton_append]

/-- A run adds and removes no consumers. -/
theorem length_eq {r : Run σ} (h : Performs cs plan r) : r.consumers.length = cs.length := by
  cases h with
  | all htaken => exact htaken.length_eq
  | stopped _ htaken _ _ => exact htaken.length_eq

end Performs

/-! ## Deliveries -/

/-- The calls that give each of the events to all of `k` consumers. -/
def callsTo (k : Nat) (evs : List Event) : List (Nat × Event) :=
  evs.flatMap fun ev => (List.range k).map fun i => (i, ev)

/-- A call gives one of the events to one of the consumers. -/
theorem mem_callsTo {k : Nat} {evs : List Event} {i : Nat} {ev : Event} :
    (i, ev) ∈ callsTo k evs ↔ i < k ∧ ev ∈ evs := by
  simp only [callsTo, List.mem_flatMap, List.mem_map, List.mem_range, Prod.mk.injEq]
  constructor
  · rintro ⟨_, hev, _, hi, rfl, rfl⟩
    exact ⟨hi, hev⟩
  · rintro ⟨hi, hev⟩
    exact ⟨ev, hev, i, hi, rfl, rfl⟩

/-- Calls are planned in parts. -/
theorem callsTo_append (k : Nat) (evs evs' : List Event) :
    callsTo k (evs ++ evs') = callsTo k evs ++ callsTo k evs' :=
  List.flatMap_append

/-- An event is given to the consumers behind the ones that have it already. -/
theorem performs_deliverFrom (ev : Event) (before cs : List σ) :
    Performs (before ++ cs) ((List.range' before.length cs.length).map fun i => (i, ev))
      ⟨before ++ (deliverFrom ev before.length cs).consumers,
        (deliverFrom ev before.length cs).calls, (deliverFrom ev before.length cs).failure⟩ := by
  induction cs generalizing before with
  | nil => exact .all .nil
  | cons c cs ih =>
    have hc : (before ++ c :: cs)[before.length]? = some c := by simp
    rw [List.length_cons, List.range'_succ, List.map_cons]
    unfold deliverFrom
    cases hhandle : Consumer.handle c ev with
    | error f => exact .stopped rfl .nil hc hhandle
    | ok c' =>
      have hset : (before ++ c :: cs).set before.length c' = (before ++ [c']) ++ cs := by simp
      have hfirst : Performs (before ++ c :: cs) [(before.length, ev)]
          ⟨(before ++ c :: cs).set before.length c', [(before.length, ev)], none⟩ :=
        .all (.cons hc hhandle .nil)
      have hrest := ih (before ++ [c'])
      rw [List.length_append, List.length_singleton, ← hset, List.append_assoc] at hrest
      exact hfirst.append hrest

/-- An event about a named element is given to all consumers. -/
theorem performs_deliver {ev : Event} (h : ev.nameError? = none) (cs : List σ) :
    Performs cs (callsTo cs.length [ev]) (deliver ev cs) := by
  have hfrom := performs_deliverFrom ev [] cs
  rw [List.length_nil, ← List.range_eq_range'] at hfrom
  simpa [deliver, h, callsTo] using hfrom

/-- Events are delivered in parts. -/
theorem dispatch_append (es es' : List Event) (cs : List σ) :
    dispatch (es ++ es') cs =
      let r := dispatch es cs
      match r.failure with
      | some _ => r
      | none =>
        let rest := dispatch es' r.consumers
        ⟨rest.consumers, r.calls ++ rest.calls, rest.failure⟩ := by
  induction es generalizing cs with
  | nil => rfl
  | cons e es ih =>
    rw [List.cons_append, dispatch, dispatch]
    cases hfailure : (deliver e cs).failure with
    | some f => simp [hfailure]
    | none =>
      rw [ih]
      cases hrest : (dispatch es (deliver e cs).consumers).failure with
      | some f => simp [hrest]
      | none => simp [hrest]

/-- Events about named elements are given to all consumers, one after the other. -/
theorem performs_dispatch {es : List Event} (h : ∀ ev ∈ es, ev.nameError? = none) (cs : List σ) :
    Performs cs (callsTo cs.length es) (dispatch es cs) := by
  induction es generalizing cs with
  | nil => exact .all .nil
  | cons ev es ih =>
    have hplan : callsTo cs.length (ev :: es) = callsTo cs.length [ev] ++ callsTo cs.length es :=
      callsTo_append cs.length [ev] es
    have hev := performs_deliver (h ev (List.mem_cons_self ..)) cs
    have hlength := hev.length_eq
    rw [hplan, dispatch]
    rcases hdeliver : deliver ev cs with ⟨cs', calls, _ | f⟩
    · rw [hdeliver] at hev hlength
      have hrest := ih (fun ev' h' => h ev' (List.mem_cons_of_mem _ h')) cs'
      rw [hlength] at hrest
      exact hev.append hrest
    · rw [hdeliver] at hev
      exact hev.append_of_failed _

/-! ## Outcomes -/

/-- Events are about named elements, or there is a first one that is not. -/
theorem forall_named_or_first_unnamed (es : List Event) :
    (∀ ev ∈ es, ev.nameError? = none) ∨ ∃ before ev after f, es = before ++ ev :: after ∧
      (∀ ev' ∈ before, ev'.nameError? = none) ∧ ev.nameError? = some f := by
  induction es with
  | nil => exact .inl (List.forall_mem_nil _)
  | cons e es ih =>
    cases he : e.nameError? with
    | some f => exact .inr ⟨[], e, es, f, rfl, List.forall_mem_nil _, he⟩
    | none =>
      rcases ih with hall | ⟨before, ev, after, f, rfl, hbefore, hf⟩
      · exact .inl (List.forall_mem_cons.2 ⟨he, hall⟩)
      · exact .inr ⟨e :: before, ev, after, f, rfl, List.forall_mem_cons.2 ⟨he, hbefore⟩, hf⟩

/-- How the delivery of events ends: all of them or some first ones were planned as calls, all of
these are taken unless one fails, or it is then the turn of an element without a name. -/
inductive Outcome (es : List Event) (cs : List σ) : Run σ → Prop
  | performed {before after : List Event} {r : Run σ} : es = before ++ after →
      (∀ ev ∈ before, ev.nameError? = none) → Performs cs (callsTo cs.length before) r →
      (r.failure = none → after = []) → Outcome es cs r
  | unnamed {before after : List Event} {ev : Event} {f : FatalError} {cs' : List σ} :
      es = before ++ ev :: after → (∀ ev' ∈ before, ev'.nameError? = none) →
      ev.nameError? = some f → Takes cs (callsTo cs.length before) cs' →
      Outcome es cs ⟨cs', callsTo cs.length before, some f⟩

/-- Events are delivered up to a handler that fails or an element without a name. -/
theorem dispatch_outcome (es : List Event) (cs : List σ) : Outcome es cs (dispatch es cs) := by
  rcases forall_named_or_first_unnamed es with hall | ⟨before, ev, after, f, rfl, hbefore, hf⟩
  · exact .performed (List.append_nil es).symm hall (performs_dispatch hall cs) fun _ => rfl
  · have hrun := performs_dispatch hbefore cs
    rw [dispatch_append]
    rcases hdispatch : dispatch before cs with ⟨cs', calls, _ | g⟩
    · rw [hdispatch] at hrun
      have hstop : dispatch (ev :: after) cs' = ⟨cs', [], some f⟩ := by
        simp [dispatch, deliver, hf]
      cases hrun with
      | all htaken => simpa [hstop] using Outcome.unnamed rfl hbefore hf htaken
    · rw [hdispatch] at hrun
      exact .performed rfl hbefore hrun fun h => by cases h

namespace Outcome

variable {es : List Event} {cs : List σ} {r : Run σ}

/-- What is called are first calls of events about named elements. -/
theorem calls_planned (h : Outcome es cs r) : ∃ before, before <+: es ∧
    (∀ ev ∈ before, ev.nameError? = none) ∧ r.calls <+: callsTo cs.length before := by
  cases h with
  | @performed before after _ hes hbefore hrun _ =>
    exact ⟨before, ⟨after, hes.symm⟩, hbefore, hrun.calls_planned⟩
  | @unnamed before after ev f cs' hes hbefore _ _ =>
    exact ⟨before, ⟨ev :: after, hes.symm⟩, hbefore, List.prefix_rfl⟩

/-- Without a failure, all events are about named elements and taken by all consumers. -/
theorem completed (h : Outcome es cs r) (hr : r.failure = none) :
    (∀ ev ∈ es, ev.nameError? = none) ∧ r.calls = callsTo cs.length es ∧
      Takes cs r.calls r.consumers := by
  cases h with
  | @performed before after _ hes hbefore hrun hafter =>
    rw [hes, hafter hr, List.append_nil]
    cases hrun with
    | all htaken => exact ⟨hbefore, rfl, htaken⟩
    | stopped _ _ _ _ => cases hr
  | unnamed _ _ _ _ => cases hr

/-- A failure is that of the last call, or of an element without a name whose turn it is. -/
theorem failed {f : FatalError} (h : Outcome es cs r) (hr : r.failure = some f) :
    (∃ taken i ev c, r.calls = taken ++ [(i, ev)] ∧ Takes cs taken r.consumers ∧
      r.consumers[i]? = some c ∧ Consumer.handle c ev = .error f) ∨
    ∃ before ev after, es = before ++ ev :: after ∧ (∀ ev' ∈ before, ev'.nameError? = none) ∧
      ev.nameError? = some f ∧ r.calls = callsTo cs.length before ∧
      Takes cs r.calls r.consumers := by
  cases h with
  | performed _ _ hrun _ =>
    cases hrun with
    | all _ => cases hr
    | @stopped _ taken rest i ev c _ _ htaken hc hfail =>
      cases hr
      exact .inl ⟨taken, i, ev, c, rfl, htaken, hc, hfail⟩
  | @unnamed before after ev _ _ hes hbefore hf htaken =>
    cases hr
    exact .inr ⟨before, ev, after, hes, hbefore, hf, rfl, htaken⟩

end Outcome

end

end EntityModel
