import EntityModel.Proofs.Parse.History
import EntityModel.Proofs.Validator.NormalForm
import EntityModel.Proofs.Validator.Operations
import Mathlib.Data.List.TakeWhile

/-!
# Elements before their entity

Handlers may be called with an element of an entity that was not announced. An attribute then adds
the entity without the attributes of the table, and files a row about it (`missingRow`); so does a
reference, but only if it has a usable target. Each call either adds an entity or leaves it alone
(`mem_names_perform`) and files the row exactly where it adds an unannounced one
(`mem_missingRow_perform`). So the row is there after any calls if a usable element came before the
entity was announced (`missingRow_iff_element_first`).
-/

namespace EntityModel

/-- An event hands over an element that can be put into an entity: an attribute, or a reference with
a usable target. -/
inductive Event.HandsOver (n : String) : Event → Prop
  | ofAttribute (name : String) (c : AttributeConfig) : HandsOver n (.declareAttribute n name c)
  | ofReference (name : String) {c : ReferenceConfig} {target : String} :
      c.target = some (.text target) → target ≠ "" → HandsOver n (.declareReference n name c)

namespace ReferenceConfig

variable {c : ReferenceConfig}

/-- A reference with a usable target. -/
theorem complete?_of_target {target : String} (hc : c.target = some (.text target))
    (hne : target ≠ "") :
    c.complete? = some ⟨target, c.description.getD "", c.annotations⟩ := by
  rw [complete?_eq, targetName?, hc]
  simp [Value.asText?, Option.filter, hne]

/-- A usable target is a text that is not empty. -/
theorem isSome_complete? :
    c.complete?.isSome = true ↔ ∃ target, c.target = some (.text target) ∧ target ≠ "" := by
  constructor
  · intro h
    obtain ⟨r, hr⟩ := Option.isSome_iff_exists.1 h
    rw [complete?_eq, Option.map_eq_some_iff] at hr
    obtain ⟨target, htarget, -⟩ := hr
    obtain ⟨htarget, hne⟩ := Option.filter_eq_some_iff.1 htarget
    obtain ⟨v, hv, htext⟩ := Option.bind_eq_some_iff.1 htarget
    cases v <;> cases htext
    exact ⟨target, hv, by simpa using hne⟩
  · rintro ⟨target, hc, hne⟩
    rw [complete?_of_target hc hne]
    rfl

end ReferenceConfig

/-- An event adds the entity that it declares, or that it hands over an element of. -/
theorem Event.mem_registers {ev : Event} {n : String} :
    n ∈ ev.registers ↔ (∃ e, ev = .declareEntity n e) ∨ ev.HandsOver n := by
  constructor
  · intro h
    have hentity := Event.entity?_of_mem_registers h
    cases ev with
    | declareEntity name e =>
      obtain rfl := Option.some.inj hentity
      exact .inl ⟨e, rfl⟩
    | declareAttribute entity name c =>
      obtain rfl := Option.some.inj hentity
      exact .inr (.ofAttribute name c)
    | declareReference entity name c =>
      obtain rfl := Option.some.inj hentity
      have husable : c.complete?.isSome = true := by
        by_contra hnone
        simp [registers, hnone] at h
      obtain ⟨target, hc, hne⟩ := ReferenceConfig.isSome_complete?.1 husable
      exact .inr (.ofReference name hc hne)
    | finish => cases hentity
  · rintro (⟨e, rfl⟩ | h)
    · exact List.mem_singleton.2 rfl
    · cases h with
      | ofAttribute name c => exact List.mem_singleton.2 rfl
      | ofReference name hc hne =>
        simp [registers, ReferenceConfig.isSome_complete?.2 ⟨_, hc, hne⟩]

namespace Validator

/-! ## The row about an unannounced entity -/

/-- The row that tells that an entity was not announced before its elements. -/
def missingRow (n : String) : ErrorRow :=
  ⟨n, .wholeObject, ErrorRecord.wholeEntity, notInitializedError⟩

/-- The row is filed where an entity is missing. -/
theorem mem_missingRows {v : Validator} {entity n : String} (h : entity ≠ "") :
    missingRow n ∈ v.missingRows entity ↔ entity = n ∧ n ∉ v.model.names := by
  unfold missingRows
  split
  · next hmem =>
    have hmem : entity ∈ v.model.names := v.model.entities.contains_eq_true.1 hmem
    simp only [List.not_mem_nil, false_iff, not_and, not_not]
    rintro rfl
    exact hmem
  · next hmem =>
    have hmem : entity ∉ v.model.names := fun hn => hmem (v.model.entities.contains_eq_true.2 hn)
    simp only [List.mem_singleton, ErrorRow.ofObject, ErrorRecord.fileName_some h, missingRow,
      ErrorRow.mk.injEq, and_true]
    constructor
    · rintro rfl
      exact ⟨rfl, hmem⟩
    · exact fun hn => hn.1.symm

/-- What an event finds by itself is never this row. -/
theorem missingRow_notMem_findings {t : ValidationTables} {ev : Event} {n : String} :
    missingRow n ∉ ev.findings t := by
  cases ev <;> simp [Event.findings, missingRow]

/-- An entity without a key has another row. -/
theorem missingRow_notMem_keyRows {m : NormalizedModel} {names : List String} {n : String} :
    missingRow n ∉ m.keyRows names := by
  intro h
  obtain ⟨name, -, hname⟩ := List.mem_map.1 h
  have hmessage : noKeyError = notInitializedError := congrArg ErrorRow.message hname
  exact absurd hmessage (by decide)

/-- Of the findings of an event, the row stands for an element that comes too early. -/
theorem mem_findings {v : Validator} {ev : Event} {n : String} (h : ev.nameError? = none) :
    missingRow n ∈ v.findings ev ↔ ev.HandsOver n ∧ n ∉ v.model.names := by
  unfold findings
  rw [List.mem_append, or_iff_right missingRow_notMem_findings]
  cases ev with
  | declareEntity name e =>
    simp only [List.not_mem_nil, false_iff, not_and]
    rintro ⟨⟩
  | declareAttribute entity name c =>
    have hentity : entity ≠ "" := fun he => by simp [Event.nameError?, he] at h
    rw [mem_missingRows hentity]
    refine and_congr_left fun _ => ⟨?_, ?_⟩
    · rintro rfl
      exact .ofAttribute name c
    · rintro ⟨⟩
      rfl
  | declareReference entity name c =>
    have hentity : entity ≠ "" := fun he => by simp [Event.nameError?, he] at h
    dsimp only
    split
    · next husable =>
      obtain ⟨target, hc, hne⟩ := ReferenceConfig.isSome_complete?.1 husable
      rw [mem_missingRows hentity]
      refine and_congr_left fun _ => ⟨?_, ?_⟩
      · rintro rfl
        exact .ofReference name hc hne
      · rintro ⟨⟩
        rfl
    · next hnone =>
      simp only [List.not_mem_nil, false_iff, not_and]
      rintro (_ | ⟨_, hc, hne⟩)
      exact absurd (ReferenceConfig.isSome_complete?.2 ⟨_, hc, hne⟩) hnone
  | finish =>
    simp only [missingRow_notMem_keyRows, false_iff, not_and]
    rintro ⟨⟩

/-- Events that hand over no element too early leave the row as it is. -/
theorem mem_missingRow_foldl {evs : List Event} {v : Validator} {n : String}
    (hnamed : ∀ ev ∈ evs, ev.nameError? = none)
    (hknown : ∀ ev ∈ evs, ev.HandsOver n → n ∈ v.model.names) :
    missingRow n ∈ (evs.foldl accept v).errors.rows ↔ missingRow n ∈ v.errors.rows := by
  induction evs generalizing v with
  | nil => rfl
  | cons ev evs ih =>
    have hnames : n ∈ v.model.names → n ∈ (v.accept ev).model.names := by
      intro hn
      rw [names_accept]
      exact DependencyGraph.mem_foldl_addName.2 (.inl hn)
    have hfound : missingRow n ∉ v.findings ev := by
      rw [mem_findings (hnamed ev List.mem_cons_self)]
      exact fun h => h.2 (hknown ev List.mem_cons_self h.1)
    rw [List.foldl_cons, ih, errors_accept, ErrorRecord.mem_rows_addAll, or_iff_right hfound]
    · exact fun ev' hev' => hnamed ev' (List.mem_cons_of_mem ev hev')
    · exact fun ev' hev' h => hnames (hknown ev' (List.mem_cons_of_mem ev hev') h)

/-! ## Calls -/

/-- A call announces an entity: by the handler of its declaration, or by validating it alone. -/
inductive Operation.Announces (n : String) : Operation → Prop
  | ofHandler (e : Entity) : n ≠ "" → Announces n (.handle (.declareEntity n e))
  | ofEntity (e : Entity) : n ≠ "" → Announces n (.normalizeEntity n e)

/-- A call hands over an element that can be put into an entity. -/
inductive Operation.HandsOver (n : String) : Operation → Prop
  | ofHandler {ev : Event} : ev.nameError? = none → ev.HandsOver n → HandsOver n (.handle ev)

/-- The events that a call is about. -/
def Operation.events : Operation → List Event
  | .handle ev => [ev]
  | .normalizeEntity name e => e.events name
  | _ => []

/-- The events that a call delivers: those before the first without a name. -/
def Operation.delivered (op : Operation) : List Event :=
  op.events.takeWhile fun ev => ev.nameError?.isNone

/-- Delivered events have names. -/
theorem Operation.of_mem_delivered {op : Operation} {ev : Event} (h : ev ∈ op.delivered) :
    ev ∈ op.events ∧ ev.nameError? = none := by
  refine ⟨(List.takeWhile_prefix _).subset h, Option.isNone_iff_eq_none.1 ?_⟩
  exact List.mem_takeWhile_imp (p := fun ev : Event => ev.nameError?.isNone) h

/-- A handled event is delivered if it has a name. -/
theorem Operation.delivered_handle {ev : Event} (h : ev.nameError? = none) :
    (handle ev).delivered = [ev] := by
  simp [delivered, events, h]

/-- Of an entity without a name, nothing is delivered. -/
theorem Operation.delivered_unnamed (e : Entity) : (normalizeEntity "" e).delivered = [] := by
  simp [delivered, events, Entity.events, Event.nameError?]

/-- The declaration of an entity that is validated alone is delivered first, if it has a name. -/
theorem Operation.delivered_normalizeEntity {name : String} (h : name ≠ "") (e : Entity) :
    (normalizeEntity name e).delivered = .declareEntity name e ::
      (e.attributeEvents name ++ e.referenceEvents name).takeWhile fun ev =>
        ev.nameError?.isNone := by
  simp [delivered, events, Entity.events, Event.nameError?, h]

/-- A call makes of the validator what its events make of it, and files other rows. -/
theorem perform_eq (v : Validator) (op : Operation) :
    ∃ rows, (∀ n, missingRow n ∉ rows) ∧ v.perform op =
      (op.delivered.foldl accept v).withErrors
        ((op.delivered.foldl accept v).errors.addAll rows) := by
  cases op with
  | handle ev =>
    refine ⟨[], fun n => List.not_mem_nil, ?_⟩
    cases hname : ev.nameError? with
    | some f => simp [perform, Consumer.handle, Operation.delivered, Operation.events, hname]
    | none => simp [perform, handle_eq_ok v ev hname, Operation.delivered_handle hname]
  | normalizeAttribute entity name c =>
    refine ⟨_, fun n => ?_, congrArg v.withErrors (v.errors_fileAttribute entity name _)⟩
    simp [missingRow]
  | normalizeReference entity name c =>
    refine ⟨_, fun n => ?_, congrArg v.withErrors (v.errors_fileReference entity name _)⟩
    simp [missingRow]
  | normalizeEntity name e =>
    rw [perform, normalizeEntity, feed_eq_takeWhile handle_eq_ok]
    cases (e.events name).findSome? Event.nameError? with
    | some f => exact ⟨[], fun n => List.not_mem_nil, rfl⟩
    | none => exact ⟨_, fun n => missingRow_notMem_keyRows, foldl_checkEntity _ [name]⟩
  | checkEntity name => exact ⟨_, fun n => missingRow_notMem_keyRows, v.foldl_checkEntity [name]⟩
  | checkTarget entity name target =>
    refine ⟨_, fun n => ?_, congrArg Prod.snd (v.checkTarget_eq entity name target)⟩
    split <;> simp [missingRow, ErrorRow.ofTarget]
  | checkTargets =>
    refine ⟨_, fun n => ?_, v.checkTargets_snd⟩
    simp [missingRow, ErrorRow.ofTarget]

/-- The entity that a delivered event adds is announced, or an element of it is handed over. -/
theorem Operation.exists_registers {op : Operation} {n : String} :
    (∃ ev ∈ op.delivered, n ∈ ev.registers) ↔ op.Announces n ∨ op.HandsOver n := by
  constructor
  · rintro ⟨ev, hdelivered, hn⟩
    obtain ⟨hev, hname⟩ := of_mem_delivered hdelivered
    cases op with
    | handle ev' =>
      obtain rfl := List.mem_singleton.1 hev
      rcases Event.mem_registers.1 hn with ⟨e, rfl⟩ | hover
      · exact .inl (.ofHandler e fun h => by simp [Event.nameError?, h] at hname)
      · exact .inr (.ofHandler hname hover)
    | normalizeEntity name e =>
      have hentity := e.entity?_of_mem_events hev
      obtain rfl := Option.some.inj (hentity.symm.trans (Event.entity?_of_mem_registers hn))
      refine .inl (.ofEntity e ?_)
      rintro rfl
      rw [delivered_unnamed] at hdelivered
      cases hdelivered
    | _ => cases hev
  · rintro ((⟨e, hn⟩ | ⟨e, hn⟩) | ⟨hname, hover⟩)
    · have hname : (Event.declareEntity n e).nameError? = none := if_neg hn
      rw [delivered_handle hname]
      exact ⟨_, List.mem_singleton.2 rfl, List.mem_singleton.2 rfl⟩
    · rw [delivered_normalizeEntity hn]
      exact ⟨_, List.mem_cons_self, List.mem_singleton.2 rfl⟩
    · rw [delivered_handle hname]
      exact ⟨_, List.mem_singleton.2 rfl, Event.mem_registers.2 (.inr hover)⟩

/-- A call adds the entity that it announces or hands over an element of, and no other. -/
theorem mem_names_perform {v : Validator} {op : Operation} {n : String} :
    n ∈ (v.perform op).model.names ↔ n ∈ v.model.names ∨ op.Announces n ∨ op.HandsOver n := by
  obtain ⟨rows, -, hperform⟩ := v.perform_eq op
  rw [hperform, model_withErrors, names_foldl, DependencyGraph.mem_foldl_addName, List.mem_flatMap,
    Operation.exists_registers]

/-- The events of an entity that is validated alone leave the row as it is: the entity is announced
first, so that its elements come late enough. -/
theorem mem_missingRow_normalizeEntity {v : Validator} {name n : String} {e : Entity} :
    missingRow n ∈ ((Operation.normalizeEntity name e).delivered.foldl accept v).errors.rows ↔
      missingRow n ∈ v.errors.rows := by
  by_cases hname : name = ""
  · subst hname
    rw [Operation.delivered_unnamed, List.foldl_nil]
  · have hdelivered := Operation.delivered_normalizeEntity hname e
    have hentity : ∀ ev ∈ (Operation.normalizeEntity name e).delivered,
        ev.nameError? = none ∧ ev.entity? = some name := by
      intro ev hev
      obtain ⟨hev, hname⟩ := Operation.of_mem_delivered hev
      exact ⟨hname, e.entity?_of_mem_events hev⟩
    rw [hdelivered] at hentity ⊢
    have hdeclared : missingRow n ∉ v.findings (.declareEntity name e) := by
      rw [mem_findings (hentity _ List.mem_cons_self).1]
      rintro ⟨⟨⟩, -⟩
    rw [List.foldl_cons, mem_missingRow_foldl, errors_accept, ErrorRecord.mem_rows_addAll,
      or_iff_right hdeclared]
    · exact fun ev hev => (hentity ev (List.mem_cons_of_mem _ hev)).1
    · intro ev hev hover
      have hn := Event.entity?_of_mem_registers (Event.mem_registers.2 (.inr hover))
      obtain rfl := Option.some.inj ((hentity ev (List.mem_cons_of_mem _ hev)).2.symm.trans hn)
      rw [names_accept]
      exact DependencyGraph.mem_addName.2 (.inr rfl)

/-- A handler files the row about an entity if it is called with an element of it too early. -/
theorem mem_missingRow_handle {v : Validator} {ev : Event} {n : String} :
    missingRow n ∈ ((Operation.handle ev).delivered.foldl accept v).errors.rows ↔
      missingRow n ∈ v.errors.rows ∨ ((Operation.handle ev).HandsOver n ∧ n ∉ v.model.names) := by
  cases hname : ev.nameError? with
  | some f =>
    have hnone : ¬ (Operation.handle ev).HandsOver n := by
      rintro ⟨hnone, -⟩
      cases hname.symm.trans hnone
    simp [Operation.delivered, Operation.events, hname, hnone]
  | none =>
    have hover : (Operation.handle ev).HandsOver n ↔ ev.HandsOver n := by
      constructor
      · rintro ⟨-, h⟩
        exact h
      · exact .ofHandler hname
    rw [Operation.delivered_handle hname, List.foldl_cons, List.foldl_nil, errors_accept,
      ErrorRecord.mem_rows_addAll, mem_findings hname, hover]
    exact or_comm

/-- A call files the row about an entity if it hands over an element of it too early. -/
theorem mem_missingRow_perform {v : Validator} {op : Operation} {n : String} :
    missingRow n ∈ (v.perform op).errors.rows ↔
      missingRow n ∈ v.errors.rows ∨ (op.HandsOver n ∧ n ∉ v.model.names) := by
  obtain ⟨rows, hrows, hperform⟩ := v.perform_eq op
  rw [hperform, errors_withErrors, ErrorRecord.mem_rows_addAll, or_iff_right (hrows n)]
  cases op with
  | handle ev => exact mem_missingRow_handle
  | normalizeEntity name e =>
    rw [mem_missingRow_normalizeEntity, or_iff_left]
    rintro ⟨⟨⟩, -⟩
  | _ =>
    simp only [Operation.delivered, Operation.events, List.takeWhile_nil, List.foldl_nil]
    refine (or_iff_left ?_).symm
    rintro ⟨⟨⟩, -⟩

/-! ## Runs of calls -/

/-- Calls leave the tables as they are. -/
theorem tables_foldl_perform (v : Validator) (ops : List Operation) :
    (ops.foldl perform v).tables = v.tables := by
  induction ops generalizing v with
  | nil => rfl
  | cons op ops ih =>
    obtain ⟨rows, -, hperform⟩ := v.perform_eq op
    rw [List.foldl_cons, ih, hperform, tables_withErrors, tables_foldl]

/-- After calls, the entities are those that were announced or that an element was handed over
of. -/
theorem mem_names_foldl_perform {v : Validator} {ops : List Operation} {n : String} :
    n ∈ (ops.foldl perform v).model.names ↔
      n ∈ v.model.names ∨ ∃ op ∈ ops, op.Announces n ∨ op.HandsOver n := by
  induction ops generalizing v with
  | nil => simp
  | cons op ops ih =>
    rw [List.foldl_cons, ih, mem_names_perform, or_assoc]
    simp only [List.mem_cons, exists_eq_or_imp]

/-- Some call hands over an element of an entity that no call before it has announced. -/
def ElementFirst (n : String) (ops : List Operation) : Prop :=
  ∃ before op after, ops = before ++ op :: after ∧ op.HandsOver n ∧
    ∀ op' ∈ before, ¬ op'.Announces n

/-- An entity that an element came first of is there. -/
theorem mem_names_of_elementFirst {v : Validator} {ops : List Operation} {n : String}
    (h : ElementFirst n ops) : n ∈ (ops.foldl perform v).model.names := by
  obtain ⟨before, op, after, rfl, hover, -⟩ := h
  exact mem_names_foldl_perform.2 (.inr ⟨op, by simp, .inr hover⟩)

/-- One more call is the first about the entity, or some call before it is. -/
theorem elementFirst_concat {n : String} {ops : List Operation} {op : Operation} :
    ElementFirst n (ops ++ [op]) ↔
      ElementFirst n ops ∨ (op.HandsOver n ∧ ∀ op' ∈ ops, ¬ op'.Announces n) := by
  constructor
  · rintro ⟨before, op', after, hops, hover, hbefore⟩
    rcases List.eq_nil_or_concat after with rfl | ⟨after, last, rfl⟩
    · obtain ⟨rfl, hop⟩ := List.append_inj' hops rfl
      obtain rfl := List.singleton_inj.1 hop
      exact .inr ⟨hover, hbefore⟩
    · rw [List.concat_eq_append, ← List.cons_append, ← List.append_assoc] at hops
      obtain ⟨rfl, -⟩ := List.append_inj' hops rfl
      exact .inl ⟨before, op', after, rfl, hover, hbefore⟩
  · rintro (⟨before, op', after, rfl, hover, hbefore⟩ | ⟨hover, hbefore⟩)
    · exact ⟨before, op', after ++ [op], by simp, hover, hbefore⟩
    · exact ⟨ops, op, [], rfl, hover, hbefore⟩

/-- After any calls, the row about an entity is there if an element of it came first. -/
theorem missingRow_iff_element_first (t : ValidationTables) (ops : List Operation) (n : String) :
    missingRow n ∈ (ops.foldl perform (ofTables t)).errors.rows ↔ ElementFirst n ops := by
  induction ops using List.reverseRecOn with
  | nil =>
    refine ⟨fun h => absurd h List.not_mem_nil, ?_⟩
    rintro ⟨before, op, after, hops, -⟩
    cases before <;> cases hops
  | append_singleton ops op ih =>
    rw [List.foldl_append, List.foldl_cons, List.foldl_nil, mem_missingRow_perform, ih,
      elementFirst_concat, mem_names_foldl_perform]
    constructor
    · rintro (h | ⟨hover, hnew⟩)
      · exact .inl h
      · exact .inr ⟨hover, fun op' hop' h => hnew (.inr ⟨op', hop', .inl h⟩)⟩
    · rintro (h | ⟨hover, hnone⟩)
      · exact .inl h
      -- Where the entity is there without an announcement, it was added by an earlier element.
      by_cases hover' : ∃ op' ∈ ops, op'.HandsOver n
      · obtain ⟨op', hop', hover'⟩ := hover'
        obtain ⟨before, after, rfl⟩ := List.append_of_mem hop'
        refine .inl ⟨before, op', after, rfl, hover', fun op'' hop'' => ?_⟩
        exact hnone op'' (List.mem_append_left _ hop'')
      · refine .inr ⟨hover, ?_⟩
        rintro (hold | ⟨op', hop', h | h⟩)
        · cases hold
        · exact hnone op' hop' h
        · exact hover' ⟨op', hop', h⟩

/-! ## Main statement -/

/-- An entity is registered without an announcement: the row tells so, the model has it as given,
and it is a node of the graph. -/
structure RegisteredAs (v : Validator) (n : String) (e : NormalizedEntity) : Prop where
  row : missingRow n ∈ v.errors.rows
  find? : v.model.find? n = some e
  node : n ∈ v.graph.nodes

/-- A handler that succeeds was called with names, and accepts its event. -/
theorem of_handle_eq_ok {v w : Validator} {ev : Event} (h : Consumer.handle v ev = .ok w) :
    ev.nameError? = none ∧ v.accept ev = w := by
  cases hname : ev.nameError? with
  | some f => simp [Consumer.handle, hname] at h
  | none => exact ⟨rfl, Except.ok.inj ((v.handle_eq_ok ev hname).symm.trans h)⟩

/-- An element that is handed over too early registers its entity. -/
theorem Linked.registeredAs {v : Validator} (h : v.Linked) {ev : Event} {n : String}
    (hname : ev.nameError? = none) (hover : ev.HandsOver n) (hn : n ∉ v.model.names)
    {e : NormalizedEntity} (he : v.tables.entityAfter none ev = some e) :
    (v.accept ev).RegisteredAs n e where
  row := by
    rw [errors_accept, ErrorRecord.mem_rows_addAll, mem_findings hname]
    exact .inl ⟨hover, hn⟩
  find? := by
    have hentity := Event.entity?_of_mem_registers (Event.mem_registers.2 (.inr hover))
    have hnone : v.model.find? n = none := v.model.entities.find?_eq_none.2 hn
    rw [find?_accept, if_pos hentity, hnone, he]
  node := by
    rw [v.nodes_accept h.nodes_eq, names_accept, DependencyGraph.mem_foldl_addName]
    exact .inr (Event.mem_registers.2 (.inr hover))

/-- A reference without a usable target has its errors filed, and nothing else is done. -/
theorem accept_of_unusable (v : Validator) (n r : String) {c : ReferenceConfig}
    (h : ∀ target, c.target = some (.text target) → target = "") :
    v.accept (.declareReference n r c) = v.fileReference n r c.errors := by
  have hnone : c.complete? = none := by
    rw [← Option.not_isSome_iff_eq_none, ReferenceConfig.isSome_complete?]
    rintro ⟨target, hc, hne⟩
    exact hne (h target hc)
  exact v.addReference_of_none hnone

end Validator

/-- After any calls of a validator, an attribute of an entity that is not there registers the
entity, with this attribute alone and a row that it was not announced. A reference does so if its
target can be used; if not, neither model nor graph have the entity, and the row is not there. So
the row is there after calls exactly if an attribute, or a reference with a usable target, came
before every announcement of its entity, and then the validator is not valid. -/
theorem unannounced_registered_iff (t : ValidationTables) (ops : List Validator.Operation) :
    let v := ops.foldl Validator.perform (.ofTables t)
    (∀ n a c w, n ∉ v.model.names → Consumer.handle v (.declareAttribute n a c) = .ok w →
      w.RegisteredAs n ⟨"", OrderedMap.empty.insert a (t.complete c), .empty⟩) ∧
    (∀ n r c w, n ∉ v.model.names → Consumer.handle v (.declareReference n r c) = .ok w →
      (∀ target, c.target = some (.text target) → target ≠ "" → w.RegisteredAs n
        ⟨"", .empty, OrderedMap.empty.insert r ⟨target, c.description.getD "", c.annotations⟩⟩) ∧
      ((∀ target, c.target = some (.text target) → target = "") →
        w.model = v.model ∧ w.graph = v.graph ∧ Validator.missingRow n ∉ w.errors.rows)) ∧
    (∀ n, Validator.missingRow n ∈ v.errors.rows ↔ Validator.ElementFirst n ops) ∧
    ∀ n, Validator.missingRow n ∈ v.errors.rows → v.isValid = false := by
  intro v
  have hlinked : v.Linked := (Validator.Linked.ofTables t).foldl_perform ops
  have htables : v.tables = t := Validator.tables_foldl_perform _ ops
  have hrow := Validator.missingRow_iff_element_first t ops
  refine ⟨?_, ?_, hrow, fun n hn => ErrorRecord.isEmpty_of_mem hn⟩
  · intro n a c w hn hw
    obtain ⟨hname, rfl⟩ := Validator.of_handle_eq_ok hw
    refine hlinked.registeredAs hname (.ofAttribute a c) hn ?_
    rw [htables]
    rfl
  · intro n r c w hn hw
    obtain ⟨hname, rfl⟩ := Validator.of_handle_eq_ok hw
    refine ⟨fun target hc hne => ?_, fun hnone => ?_⟩
    · refine hlinked.registeredAs hname (.ofReference r hc hne) hn ?_
      simp [ValidationTables.entityAfter, ReferenceConfig.complete?_of_target hc hne,
        NormalizedEntity.empty]
    · rw [v.accept_of_unusable n r hnone]
      refine ⟨rfl, rfl, ?_⟩
      rw [Validator.errors_fileReference, ErrorRecord.mem_rows_addAll, hrow]
      rintro (hfiled | hfirst)
      · simp [Validator.missingRow] at hfiled
      · exact hn (Validator.mem_names_of_elementFirst hfirst)

/-- The first element of a pet is a reference without a target, and the pet is not registered. An
attribute then registers it, and its late announcement does not make this good. -/
theorem unannounced_registered_of_pet :
    let owner : Event := .declareReference "Pet" "owner" (.ofTarget .null)
    let name : Event := .declareAttribute "Pet" "name" .empty
    let pet : Event := .declareEntity "Pet" .empty
    let v := Validator.ofTables .builtIn
    let runOf := fun evs : List Event => (evs.map .handle).foldl Validator.perform v
    (∃ w, Consumer.handle v owner = .ok w ∧ w.model = v.model ∧ w.graph = v.graph ∧
      w.errors.rows = [⟨"Pet", .referenceItem, "owner", "No reference target defined"⟩]) ∧
    Validator.missingRow "Pet" ∉ (runOf [owner, pet, name]).errors.rows ∧
    Validator.missingRow "Pet" ∈ (runOf [owner, name, pet]).errors.rows ∧
    (runOf [owner, name, pet]).isValid = false := by
  intro owner name pet v runOf
  obtain ⟨-, hreference, -, -⟩ := unannounced_registered_iff .builtIn []
  obtain ⟨-, -, hrow, hvalid⟩ :=
    unannounced_registered_iff .builtIn ([owner, name, pet].map .handle)
  have hfirst : Validator.missingRow "Pet" ∈ (runOf [owner, name, pet]).errors.rows := by
    refine (hrow "Pet").2 ⟨[.handle owner], .handle name, [.handle pet], rfl, ?_, ?_⟩
    · exact .ofHandler rfl (.ofAttribute "name" .empty)
    · intro op hop hpet
      obtain rfl := List.mem_singleton.1 hop
      simp only [owner] at hpet
      cases hpet
  have hnone : ∀ target, (ReferenceConfig.ofTarget .null).target = some (.text target) →
      target = "" := by
    intro target h
    cases h
  obtain ⟨-, hsame⟩ := hreference "Pet" "owner" (.ofTarget .null) _ List.not_mem_nil rfl
  obtain ⟨hmodel, hgraph, -⟩ := hsame hnone
  exact ⟨⟨_, rfl, hmodel, hgraph, by decide⟩, by decide, hfirst, hvalid "Pet" hfirst⟩

end EntityModel
