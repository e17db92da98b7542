import EntityModel.Participant
import EntityModel.Proofs.Generator.Builder
import EntityModel.Proofs.Parse.Calls
import EntityModel.Proofs.Schema.Builder

/-!
# The independence of the consumers of a parse

The calls of a parse go from consumer to consumer, element by element, but a call changes only its
own consumer. So a consumer ends where the events of its own calls alone take it (`Takes.feed`),
which are all events of the model if the parse does not fail, and first ones if it does
(`parse_consumer`). The consumers of the library fail at no call, so that it depends on the model
alone whether their parse fails, and a consumer ends the same in any company
(`participants_independent`).
-/

namespace EntityModel

/-! ## The calls of one consumer -/

/-- The events that the consumer at a place is called with. -/
def eventsTo (i : Nat) (calls : List (Nat × Event)) : List Event :=
  calls.filterMap fun call => if call.1 = i then some call.2 else none

/-- The events of calls that are made in parts. -/
theorem eventsTo_append (i : Nat) (calls calls' : List (Nat × Event)) :
    eventsTo i (calls ++ calls') = eventsTo i calls ++ eventsTo i calls' :=
  List.filterMap_append

/-- A call of the consumer itself. -/
theorem eventsTo_cons_self (i : Nat) (ev : Event) (calls : List (Nat × Event)) :
    eventsTo i ((i, ev) :: calls) = ev :: eventsTo i calls := by
  simp [eventsTo]

/-- A call of another consumer. -/
theorem eventsTo_cons_of_ne {i j : Nat} (h : j ≠ i) (ev : Event) (calls : List (Nat × Event)) :
    eventsTo i ((j, ev) :: calls) = eventsTo i calls := by
  simp [eventsTo, h]

/-- An event that is given to all consumers is given to each consumer once. -/
theorem eventsTo_map_range (i k : Nat) (ev : Event) :
    eventsTo i ((List.range k).map fun j => (j, ev)) = if i < k then [ev] else [] := by
  induction k with
  | zero => rfl
  | succ k ih =>
    rw [List.range_succ, List.map_append, eventsTo_append, ih, List.map_singleton]
    by_cases hk : k = i
    · subst hk
      rw [eventsTo_cons_self, if_neg (Nat.lt_irrefl k), if_pos (Nat.lt_succ_self k)]
      rfl
    · have hlt : i < k + 1 ↔ i < k := by omega
      rw [eventsTo_cons_of_ne hk]
      simp only [hlt, eventsTo, List.filterMap_nil, List.append_nil]

/-- Of the calls that give events to all consumers, each consumer gets the events. -/
theorem eventsTo_callsTo {i k : Nat} (hi : i < k) (evs : List Event) :
    eventsTo i (callsTo k evs) = evs := by
  induction evs with
  | nil => rfl
  | cons ev evs ih =>
    rw [callsTo, List.flatMap_cons, eventsTo_append, eventsTo_map_range, if_pos hi,
      List.singleton_append]
    exact congrArg (ev :: ·) ih

/-- Of first calls, each consumer gets first events. -/
theorem eventsTo_initial {calls calls' : List (Nat × Event)} (h : calls <+: calls') (i : Nat) :
    eventsTo i calls <+: eventsTo i calls' := by
  obtain ⟨rest, rfl⟩ := h
  rw [eventsTo_append]
  exact List.prefix_append ..

section
variable {σ : Type} [Consumer σ]

/-- Calls that are taken take each consumer where the events of its own calls take it alone. -/
theorem Takes.feed {cs cs' : List σ} {calls : List (Nat × Event)} (h : Takes cs calls cs')
    (hnamed : ∀ call ∈ calls, call.2.nameError? = none) {i : Nat} {c : σ} (hc : cs[i]? = some c) :
    ∃ c', cs'[i]? = some c' ∧ feed (eventsTo i calls) c = (c', none) := by
  induction h generalizing c with
  | nil => exact ⟨c, hc, rfl⟩
  | @cons cs cs' d d' j ev calls hd hhandle _ ih =>
    have hev : ev.nameError? = none := hnamed (j, ev) (List.mem_cons_self ..)
    have hrest : ∀ call ∈ calls, call.2.nameError? = none :=
      fun call hcall => hnamed call (List.mem_cons_of_mem _ hcall)
    by_cases hj : j = i
    · subst hj
      rw [hc] at hd
      cases hd
      have hplace : (cs.set j d')[j]? = some d' := by
        obtain ⟨hj, -⟩ := List.getElem?_eq_some_iff.1 hc
        exact List.getElem?_set_self hj
      obtain ⟨c', hc', hfeed⟩ := ih hrest hplace
      refine ⟨c', hc', ?_⟩
      rw [eventsTo_cons_self]
      simp only [EntityModel.feed, hev, hhandle]
      exact hfeed
    · have hplace : (cs.set j d')[i]? = some c := by
        rw [List.getElem?_set_ne hj]
        exact hc
      obtain ⟨c', hc', hfeed⟩ := ih hrest hplace
      rw [eventsTo_cons_of_ne hj]
      exact ⟨c', hc', hfeed⟩

/-- Of planned calls that are taken, each consumer takes first ones of the events. -/
theorem Takes.feed_planned {cs cs' : List σ} {taken : List (Nat × Event)} {evs : List Event}
    (h : Takes cs taken cs') (hplan : taken <+: callsTo cs.length evs)
    (hnamed : ∀ ev ∈ evs, ev.nameError? = none) {i : Nat} {c : σ} (hc : cs[i]? = some c) :
    ∃ c', cs'[i]? = some c' ∧ EntityModel.feed (eventsTo i taken) c = (c', none) ∧
      eventsTo i taken <+: evs := by
  obtain ⟨hi, -⟩ := List.getElem?_eq_some_iff.1 hc
  have htaken : ∀ call ∈ taken, call.2.nameError? = none := by
    intro call hcall
    exact hnamed call.2 (mem_callsTo.1 (hplan.subset hcall)).2
  have hinitial : eventsTo i taken <+: evs := by
    have hevents := eventsTo_initial hplan i
    rw [eventsTo_callsTo hi] at hevents
    exact hevents
  obtain ⟨c', hc', hfeed⟩ := h.feed htaken hc
  exact ⟨c', hc', hfeed, hinitial⟩

/-- A consumer of a parse ends where it ends alone if nothing fails, and otherwise where some first
events take it alone. -/
theorem parse_consumer (m : Model) {cs : List σ} {i : Nat} {c : σ} (hc : cs[i]? = some c) :
    ∃ c', (m.parse cs).consumers[i]? = some c' ∧
      ((m.parse cs).failure = none → m.parseWith c = (c', none)) ∧
      ∃ evs, evs <+: m.events ∧ feed evs c = (c', none) := by
  have houtcome : Outcome m.events cs (m.parse cs) := dispatch_outcome m.events cs
  generalize m.parse cs = r at houtcome ⊢
  obtain ⟨hi, -⟩ := List.getElem?_eq_some_iff.1 hc
  cases hr : r.failure with
  | none =>
    obtain ⟨hnamed, hcalls, htaken⟩ := houtcome.completed hr
    obtain ⟨c', hc', hfeed, -⟩ := htaken.feed_planned (hcalls ▸ List.prefix_rfl) hnamed hc
    rw [hcalls, eventsTo_callsTo hi] at hfeed
    exact ⟨c', hc', fun _ => hfeed, m.events, List.prefix_rfl, hfeed⟩
  | some f =>
    -- the calls before the failure are taken, whatever it is
    obtain ⟨taken, hfirst, htaken⟩ : ∃ taken, taken <+: r.calls ∧ Takes cs taken r.consumers := by
      rcases houtcome.failed hr with
        ⟨taken, i, ev, _, hcalls, htaken, -, -⟩ | ⟨_, _, _, -, -, -, -, htaken⟩
      · exact ⟨taken, ⟨[(i, ev)], hcalls.symm⟩, htaken⟩
      · exact ⟨r.calls, List.prefix_rfl, htaken⟩
    obtain ⟨before, hbefore, hnamed, hcalls⟩ := houtcome.calls_planned
    obtain ⟨c', hc', hfeed, hinitial⟩ := htaken.feed_planned (hfirst.trans hcalls) hnamed hc
    exact ⟨c', hc', (fun h => by cases h), _, hinitial.trans hbefore, hfeed⟩

/-- Events that are delivered to a consumer alone are fed to it. -/
theorem dispatch_singleton (evs : List Event) (c : σ) :
    (dispatch evs [c]).consumers = [(feed evs c).1] ∧
      (dispatch evs [c]).failure = (feed evs c).2 := by
  induction evs generalizing c with
  | nil => exact ⟨rfl, rfl⟩
  | cons ev evs ih =>
    cases hname : ev.nameError? with
    | some f => simp [dispatch, deliver, feed, hname]
    | none =>
      cases hhandle : Consumer.handle c ev with
      | error f => simp [dispatch, deliver, deliverFrom, feed, hname, hhandle]
      | ok c' => simpa [dispatch, deliver, deliverFrom, feed, hname, hhandle] using ih c'

end

/-! ## The consumers of the library -/

/-- A consumer of the library takes every event about a named element. -/
theorem Participant.handle_ne_error (p : Participant) {ev : Event} (h : ev.nameError? = none)
    (f : FatalError) : Consumer.handle p ev ≠ .error f := by
  intro herror
  cases p with
  | validator v =>
    have hok := congrArg (Except.map Participant.validator) (v.handle_eq_ok ev h)
    cases herror.symm.trans hok
  | schema b =>
    have hok := congrArg (Except.map Participant.schema) (b.handle_eq_ok ev h)
    cases herror.symm.trans hok
  | generator b =>
    have hok := congrArg (Except.map Participant.generator) (b.handle_eq_ok ev h)
    cases herror.symm.trans hok

/-- A parse by consumers of the library fails at the first element without a name, if there is
one. -/
theorem failure_parse_participants (m : Model) (cs : List Participant) :
    (m.parse cs).failure = m.events.findSome? Event.nameError? := by
  have houtcome : Outcome m.events cs (m.parse cs) := dispatch_outcome m.events cs
  generalize m.parse cs = r at houtcome ⊢
  cases hr : r.failure with
  | none =>
    obtain ⟨hnamed, -, -⟩ := houtcome.completed hr
    exact (List.findSome?_eq_none_iff.2 hnamed).symm
  | some f =>
    rcases houtcome.failed hr with
      ⟨taken, i, ev, c, hcalls, -, -, hfail⟩ | ⟨before, ev, after, hevents, hbefore, hf, -, -⟩
    · obtain ⟨before, -, hbefore, hplan⟩ := houtcome.calls_planned
      have hlast : (i, ev) ∈ r.calls := by simp [hcalls]
      have hev := hbefore ev (mem_callsTo.1 (hplan.subset hlast)).2
      exact absurd hfail (c.handle_ne_error hev f)
    · have hnone : before.findSome? Event.nameError? = none := List.findSome?_eq_none_iff.2 hbefore
      rw [hevents, List.findSome?_append, hnone, Option.none_or, List.findSome?_cons, hf]

/-! ## Main statement -/

/-- The consumers of a parse do not influence each other. If the parse does not fail, then each one
ends where it ends alone, and also in any other company; if it does, each one has taken first events
of the model, as if it were alone. -/
theorem participants_independent (m : Model) {cs : List Participant} {i : Nat} {c : Participant}
    (hc : cs[i]? = some c) :
    ∃ c', (m.parse cs).consumers[i]? = some c' ∧
      ((m.parse cs).failure = none → m.parseWith c = (c', none) ∧
        ∀ (others : List Participant) (j : Nat), others[j]? = some c →
          (m.parse others).failure = none ∧ (m.parse others).consumers[j]? = some c') ∧
      ∀ f, (m.parse cs).failure = some f →
        ∃ evs, evs <+: m.events ∧ feed evs c = (c', none) := by
  obtain ⟨c', hc', halone, hinitial⟩ := parse_consumer m hc
  refine ⟨c', hc', fun hr => ⟨halone hr, ?_⟩, fun _ _ => hinitial⟩
  intro others j hj
  have hothers : (m.parse others).failure = none := by
    rw [failure_parse_participants, ← failure_parse_participants m cs]
    exact hr
  obtain ⟨c'', hc'', halone', -⟩ := parse_consumer m hj
  have heq : (c', none) = (c'', none) := (halone hr).symm.trans (halone' hothers)
  cases heq
  exact ⟨hothers, hc''⟩

/-- A generator file is the same beside one validator and before two. -/
theorem participants_independent_of_person :
    let m := Model.empty.insert "Person"
      (Entity.empty.withReference "boss" (.shorthand (.text "Ghost")))
    let v : Participant := .validator (.ofTables .builtIn)
    let g : Participant := .generator (.ofOptions .builtIn .builtIn)
    [v, g][1]? = some g ∧ (m.parse [v, g]).failure = none ∧
      ∃ g', m.parseWith g = (g', none) ∧ (m.parse [v, g]).consumers[1]? = some g' ∧
        (m.parse [g, v, v]).consumers[0]? = some g' := by
  intro m v g
  have hg : [v, g][1]? = some g := rfl
  have hr : (m.parse [v, g]).failure = none := by
    rw [failure_parse_participants]
    decide
  obtain ⟨g', hg', hsuccess, -⟩ := participants_independent m hg
  obtain ⟨halone, hothers⟩ := hsuccess hr
  obtain ⟨-, hfirst⟩ := hothers [g, v, v] 0 rfl
  exact ⟨hg, hr, g', halone, hg', hfirst⟩

end EntityModel
