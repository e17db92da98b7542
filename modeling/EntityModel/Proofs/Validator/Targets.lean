import EntityModel.Proofs.Validator.Parse

/-!
# Checks of the targets of references

Targets are checked in two ways: all of them at the end (`Validator.checkTargets`), or each one as
soon as its reference is handled (`Validator.acceptChecked`), while the model is still growing. Both
change nothing but the errors, and in the parse of a model both add the same rows: since all
entities come first, an entity that is missing when a reference is handled is missing in the end.
-/

namespace EntityModel

namespace Validator

/-- The validator with other errors. -/
def withErrors (v : Validator) (r : ErrorRecord) : Validator := { v with errors := r }

variable (v : Validator) (r : ErrorRecord)

@[simp] theorem errors_withErrors : (v.withErrors r).errors = r := rfl

@[simp] theorem model_withErrors : (v.withErrors r).model = v.model := rfl

@[simp] theorem tables_withErrors : (v.withErrors r).tables = v.tables := rfl

@[simp] theorem withErrors_withErrors (r' : ErrorRecord) :
    (v.withErrors r).withErrors r' = v.withErrors r' := rfl

@[simp] theorem withErrors_self : v.withErrors v.errors = v := rfl

/-- Checking all entities files a row for each that is without a key. -/
theorem checkEntities_eq :
    v.checkEntities = v.withErrors (v.errors.addAll (v.model.keyRows v.model.names)) :=
  foldl_checkEntity ..

/-- Entities are added without regard to the errors. -/
theorem ensureEntity_withErrors (entity : String) :
    ∃ r', (v.withErrors r).ensureEntity entity = (v.ensureEntity entity).withErrors r' := by
  by_cases h : v.model.contains entity = true
  · refine ⟨r, ?_⟩
    rw [ensureEntity, ensureEntity, if_pos h, model_withErrors, if_pos h]
  · refine ⟨((v.withErrors r).fileObject entity notInitializedError).errors, ?_⟩
    rw [ensureEntity, ensureEntity, if_neg h, model_withErrors, if_neg h]
    rfl

/-- An event is accepted without regard to the errors, to which it adds its findings. -/
theorem accept_withErrors (ev : Event) :
    (v.withErrors r).accept ev = (v.accept ev).withErrors (r.addAll (v.findings ev)) := by
  -- The errors are known from the step, so it is enough that nothing else differs.
  have herrors : ((v.withErrors r).accept ev).errors = r.addAll (v.findings ev) :=
    errors_accept (v.withErrors r) ev
  suffices h : ∃ r', (v.withErrors r).accept ev = (v.accept ev).withErrors r' by
    obtain ⟨r', hr'⟩ := h
    rw [hr', errors_withErrors] at herrors
    rw [hr', herrors]
  cases ev with
  | declareEntity name e => exact ⟨_, rfl⟩
  | declareAttribute entity name c =>
    obtain ⟨r₁, h₁⟩ := ensureEntity_withErrors
      (v.fileAttribute entity name (v.tables.attributeErrors c))
      ((v.withErrors r).fileAttribute entity name (v.tables.attributeErrors c)).errors entity
    refine ⟨r₁, ?_⟩
    rw [accept, accept, addAttribute_eq, addAttribute_eq]
    exact congrArg (modifyEntity · entity _) h₁
  | declareReference entity name c =>
    cases hc : c.complete? with
    | none =>
      rw [accept, accept, addReference_of_none _ hc, addReference_of_none _ hc]
      exact ⟨_, rfl⟩
    | some reference =>
      obtain ⟨r₁, h₁⟩ := (v.fileReference entity name c.errors).ensureEntity_withErrors
        ((v.withErrors r).fileReference entity name c.errors).errors entity
      refine ⟨r₁, ?_⟩
      rw [accept, accept, addReference_of_some _ hc, addReference_of_some _ hc]
      exact congrArg (fun w : Validator =>
        let w := w.modifyEntity entity fun e =>
          { e with references := e.references.insert name reference }
        { w with graph := w.graph.addEdge entity reference.target }) h₁
  | finish =>
    rw [accept, accept, checkEntities_eq, checkEntities_eq]
    exact ⟨_, rfl⟩

/-- Events are accepted without regard to the errors. -/
theorem foldl_accept_withErrors (evs : List Event) :
    ∃ r', evs.foldl accept (v.withErrors r) = (evs.foldl accept v).withErrors r' := by
  induction evs generalizing v r with
  | nil => exact ⟨r, rfl⟩
  | cons ev evs ih =>
    rw [List.foldl_cons, accept_withErrors]
    exact ih (v.accept ev) _

end Validator

/-! ## Checks of single references -/

/-- The row about a reference whose target is none of the entities. -/
def ErrorRow.ofTarget (entity name target : String) : ErrorRow :=
  ⟨ErrorRecord.fileName (some entity), .referenceItem, name, Validator.unknownTargetError target⟩

/-- The row about a declared reference whose target is usable and none of the given entities. -/
def Event.targetRows (names : List String) : Event → List ErrorRow
  | .declareReference entity name c =>
    match c.complete? with
    | none => []
    | some r => if r.target ∈ names then [] else [.ofTarget entity name r.target]
  | _ => []

/-- The reference with its defaults, if its target is usable and one of the given entities. -/
def ReferenceConfig.known? (c : ReferenceConfig) (names : List String) :
    Option NormalizedReference :=
  c.complete?.filter fun r => r.target ∈ names

/-- The reference that an event declares, if its target is one of the given entities. -/
def Event.known? (names : List String) : Event → Option NormalizedReference
  | .declareReference _ _ c => c.known? names
  | _ => none

/-- A reference is known if its target is usable and an entity. -/
theorem ReferenceConfig.known?_eq_some {c : ReferenceConfig} {names : List String}
    {r : NormalizedReference} :
    c.known? names = some r ↔ c.complete? = some r ∧ r.target ∈ names := by
  simp [known?, Option.filter_eq_some_iff]

/-- The event is about an element of one of the entities of these names. -/
def Event.ElementOf (names : List String) : Event → Prop
  | .declareAttribute entity _ _ | .declareReference entity _ _ => entity ∈ names
  | .declareEntity _ _ | .finish => False

/-- An element can come after its entity. -/
theorem Event.ElementOf.announced {names : List String} {ev : Event} (h : ev.ElementOf names) :
    ev.Announced names := by
  cases ev with
  | declareAttribute entity name c => exact h
  | declareReference entity name c => exact h
  | _ => cases h

/-- An element is about one of the entities. -/
theorem Event.ElementOf.mem_of_entity? {names : List String} {ev : Event} {n : String}
    (h : ev.ElementOf names) (hn : ev.entity? = some n) : n ∈ names := by
  cases ev with
  | declareAttribute entity name c => exact Option.some.inj hn ▸ h
  | declareReference entity name c => exact Option.some.inj hn ▸ h
  | _ => cases h

/-- With more entities, more events are about elements of them. -/
theorem Event.ElementOf.mono {names names' : List String} {ev : Event} (h : ev.ElementOf names)
    (hsub : ∀ n ∈ names, n ∈ names') : ev.ElementOf names' := by
  cases ev with
  | declareAttribute entity name c => exact hsub entity h
  | declareReference entity name c => exact hsub entity h
  | _ => cases h

/-- The reference that an event is about, by its entity and its name. -/
def Event.reference? : Event → Option (String × String)
  | .declareReference entity name _ => some (entity, name)
  | _ => none

/-- The reference that an event is about is one of the entity that it is about. -/
theorem Event.entity?_of_reference? {ev : Event} {n r : String} (h : ev.reference? = some (n, r)) :
    ev.entity? = some n := by
  cases ev with
  | declareReference entity name c =>
    cases h
    rfl
  | _ => cases h

namespace Validator

variable (v : Validator)

/-- A reference with a usable target becomes one of its entity, and changes no other. -/
theorem reference?_accept (entity name : String) (c : ReferenceConfig) (n r : String) :
    (v.accept (.declareReference entity name c)).model.reference? n r =
      if entity = n ∧ name = r then c.complete?.or (v.model.reference? n r)
      else v.model.reference? n r := by
  unfold NormalizedModel.reference?
  rw [find?_accept]
  by_cases hn : entity = n
  · subst hn
    cases hc : c.complete? with
    | none => simp [Event.entity?, ValidationTables.entityAfter, hc]
    | some reference =>
      by_cases hr : name = r
      · simp [Event.entity?, ValidationTables.entityAfter, hc, hr]
      · cases h : v.model.find? entity <;>
          simp [Event.entity?, ValidationTables.entityAfter, hc, hr, NormalizedEntity.empty]
  · simp [Event.entity?, hn]

/-- An event that declares no reference adds none: what it leaves was there before. -/
theorem reference?_of_accept {ev : Event} (hev : ev.reference? = none) {n r : String}
    {c : NormalizedReference} (h : (v.accept ev).model.reference? n r = some c) :
    v.model.reference? n r = some c := by
  unfold NormalizedModel.reference? at h ⊢
  rw [find?_accept] at h
  cases ev with
  | declareEntity name e =>
    by_cases hn : name = n
    · simp [Event.entity?, ValidationTables.entityAfter, hn] at h
    · simpa [Event.entity?, hn] using h
  | declareAttribute entity name c =>
    by_cases hn : entity = n
    · cases hfind : v.model.find? n with
      | none => simp [Event.entity?, ValidationTables.entityAfter, hn, hfind,
          NormalizedEntity.empty] at h
      | some e => simpa [Event.entity?, ValidationTables.entityAfter, hn, hfind] using h
    · simpa [Event.entity?, hn] using h
  | declareReference entity name c => cases hev
  | finish => exact h

/-- A reference that is missing stays so until an event declares it. -/
theorem reference?_accept_of_none {v : Validator} {ev : Event} {n r : String}
    (hev : ev.reference? ≠ some (n, r)) (h : v.model.reference? n r = none) :
    (v.accept ev).model.reference? n r = none := by
  cases hreference : ev.reference? with
  | none =>
    refine Option.eq_none_iff_forall_not_mem.2 fun c hc => ?_
    rw [v.reference?_of_accept hreference hc] at h
    cases h
  | some key =>
    cases ev with
    | declareReference entity name c =>
      have hne : ¬ (entity = n ∧ name = r) := fun hsame =>
        hev (by rw [Event.reference?, hsame.1, hsame.2])
      rw [reference?_accept, if_neg hne, h]
    | _ => cases hreference

/-- Events that declare no reference add none. -/
theorem reference?_foldl_of_none {v : Validator} {evs : List Event}
    (hevs : ∀ ev ∈ evs, ev.reference? = none) (hv : ∀ n r, v.model.reference? n r = none)
    (n r : String) : (evs.foldl accept v).model.reference? n r = none := by
  induction evs generalizing v with
  | nil => exact hv n r
  | cons ev evs ih =>
    refine ih (fun ev' h => hevs ev' (List.mem_cons_of_mem _ h)) fun n r => ?_
    refine reference?_accept_of_none ?_ (hv n r)
    rw [hevs ev (List.mem_cons_self ..)]
    exact (Option.some_ne_none (n, r)).symm

/-- A check of a target says whether the target is an entity, and files a row if not. -/
theorem checkTarget_eq (entity name target : String) :
    v.checkTarget entity name target = (decide (target ∈ v.model.names),
      v.withErrors (v.errors.addAll
        (if target ∈ v.model.names then [] else [.ofTarget entity name target]))) := by
  unfold checkTarget
  by_cases h : target ∈ v.model.names
  · have hcontains : v.model.contains target = true := v.model.entities.contains_eq_true.2 h
    rw [if_pos hcontains, if_pos h, decide_eq_true h]
    rfl
  · have hcontains : ¬ v.model.contains target = true := fun h' =>
      h (v.model.entities.contains_eq_true.1 h')
    rw [if_neg hcontains, if_neg h, decide_eq_false h]
    rfl

/-- A reference that is there after its event is checked: it is given if its target is an entity of
then, and a row is filed if not. -/
theorem acceptChecked_of_reference? {entity name : String} {c : ReferenceConfig}
    {r : NormalizedReference} :
    let ev := Event.declareReference entity name c
    let v' := v.accept ev
    v'.model.reference? entity name = some r →
      v.acceptChecked ev = (if r.target ∈ v'.model.names then some r else none,
        v'.withErrors (v'.errors.addAll
          (if r.target ∈ v'.model.names then [] else [.ofTarget entity name r.target]))) := by
  intro ev v' h
  simp only [acceptChecked, ev, v', h, checkTarget_eq, decide_eq_true_eq]

/-- An event is accepted with its check as without it, but for rows that the check files. -/
theorem acceptChecked_snd (ev : Event) :
    ∃ rows, (v.acceptChecked ev).2 =
      (v.accept ev).withErrors ((v.accept ev).errors.addAll rows) := by
  cases ev with
  | declareReference entity name c =>
    cases h : (v.accept (.declareReference entity name c)).model.reference? entity name with
    | none => exact ⟨[], by simp only [acceptChecked, h]; rfl⟩
    | some r => exact ⟨_, congrArg Prod.snd (v.acceptChecked_of_reference? h)⟩
  | _ => exact ⟨[], rfl⟩

/-- Events are accepted with their checks as without them, but for the errors. -/
theorem foldl_acceptChecked (evs : List Event) :
    ∃ r, evs.foldl (fun v ev => (v.acceptChecked ev).2) v =
      (evs.foldl accept v).withErrors r := by
  induction evs generalizing v with
  | nil => exact ⟨v.errors, rfl⟩
  | cons ev evs ih =>
    obtain ⟨rows, hrows⟩ := v.acceptChecked_snd ev
    obtain ⟨r, hr⟩ := ih (v.acceptChecked ev).2
    obtain ⟨r', hr'⟩ := (v.accept ev).foldl_accept_withErrors ((v.accept ev).errors.addAll rows) evs
    refine ⟨r, ?_⟩
    rw [List.foldl_cons, hr, hrows, hr', withErrors_withErrors]
    rfl

/-- A check gives the reference that is there then, if its target is known. -/
theorem acceptChecked_fst (entity name : String) (c : ReferenceConfig) :
    let ev := Event.declareReference entity name c
    (v.acceptChecked ev).1 = (c.complete?.or (v.model.reference? entity name)).filter
      fun r => r.target ∈ (v.accept ev).model.names := by
  intro ev
  have hreference : (v.accept ev).model.reference? entity name =
      c.complete?.or (v.model.reference? entity name) := by
    rw [reference?_accept, if_pos ⟨rfl, rfl⟩]
  cases h : c.complete?.or (v.model.reference? entity name) with
  | none => simp only [acceptChecked, ev, hreference, h, Option.filter_none]
  | some r => simp [v.acceptChecked_of_reference? (hreference.trans h), Option.filter, ev]

/-- An event that declares no reference is accepted as it is. -/
theorem acceptChecked_of_reference?_eq_none {ev : Event} (h : ev.reference? = none) :
    (v.acceptChecked ev).2 = v.accept ev := by
  cases ev with
  | declareReference entity name c => cases h
  | _ => rfl

/-- A new reference is accepted, and its target is checked against the entities of then. -/
theorem acceptChecked_of_new {entity name : String} (c : ReferenceConfig)
    (h : v.model.reference? entity name = none) :
    let ev := Event.declareReference entity name c
    (v.acceptChecked ev).2 = (v.accept ev).withErrors
      ((v.accept ev).errors.addAll (ev.targetRows (v.accept ev).model.names)) := by
  intro ev
  have hreference : (v.accept ev).model.reference? entity name = c.complete? := by
    rw [reference?_accept, if_pos ⟨rfl, rfl⟩, h, Option.or_none]
  cases hc : c.complete? with
  | none => simp only [acceptChecked, ev, hreference, Event.targetRows, hc]; rfl
  | some r =>
    rw [v.acceptChecked_of_reference? (hreference.trans hc)]
    simp only [ev, Event.targetRows, hc]

/-- A new reference is given by its check if it is known among the entities of then. -/
theorem acceptChecked_fst_of_new {v : Validator} {ev : Event}
    (hnew : ∀ n r, ev.reference? = some (n, r) → v.model.reference? n r = none) :
    (v.acceptChecked ev).1 = ev.known? (v.accept ev).model.names := by
  cases ev with
  | declareReference entity name c =>
    rw [v.acceptChecked_fst, hnew entity name rfl, Option.or_none]
    rfl
  | _ => rfl

/-! ## Checks of the elements of a parse -/

/-- What a validator awaits after the declarations of a parse: elements of entities that are all
there, of which the references are new to it and to one another. -/
structure Awaits (v : Validator) (evs : List Event) : Prop where
  elements : ∀ ev ∈ evs, ev.ElementOf v.model.names
  new : ∀ ev ∈ evs, ∀ n r, ev.reference? = some (n, r) → v.model.reference? n r = none
  distinct : evs.Pairwise fun a b => ∀ key, a.reference? = some key → b.reference? ≠ some key

namespace Awaits

variable {v : Validator} {ev : Event} {evs : List Event}

/-- What is awaited depends on the model only. -/
theorem of_model_eq (h : v.Awaits evs) {w : Validator} (hw : w.model = v.model) :
    w.Awaits evs :=
  ⟨hw ▸ h.elements, hw ▸ h.new, h.distinct⟩

/-- An element adds no entity. -/
theorem names_accept (h : v.Awaits (ev :: evs)) : (v.accept ev).model.names = v.model.names := by
  have helement := h.elements ev (List.mem_cons_self ..)
  rw [Validator.names_accept]
  exact DependencyGraph.foldl_addName_of_subset fun n hn =>
    helement.mem_of_entity? (Event.entity?_of_mem_registers hn)

/-- After an element, the others are still awaited: none of their references has come with it. -/
theorem accept (h : v.Awaits (ev :: evs)) : (v.accept ev).Awaits evs where
  elements ev' hev' := h.names_accept ▸ h.elements ev' (List.mem_cons_of_mem _ hev')
  new ev' hev' n r hreference := by
    refine reference?_accept_of_none (fun hsame => ?_)
      (h.new ev' (List.mem_cons_of_mem _ hev') n r hreference)
    exact (List.pairwise_cons.1 h.distinct).1 ev' hev' _ hsame hreference
  distinct := (List.pairwise_cons.1 h.distinct).2

/-- Elements add no entity. -/
theorem names_foldl (h : v.Awaits evs) : (evs.foldl Validator.accept v).model.names =
    v.model.names := by
  induction evs generalizing v with
  | nil => rfl
  | cons ev evs ih => exact (ih h.accept).trans h.names_accept

/-- An element is given if it is a reference that is known among the entities. -/
theorem acceptChecked_fst (h : v.Awaits (ev :: evs)) :
    (v.acceptChecked ev).1 = ev.known? v.model.names := by
  rw [acceptChecked_fst_of_new (h.new ev (List.mem_cons_self ..)), h.names_accept]

/-- An element is accepted with its check as without it, but for the row about its target. -/
theorem acceptChecked_snd (h : v.Awaits (ev :: evs)) :
    (v.acceptChecked ev).2 = (v.accept ev).withErrors
      (v.errors.addAll (ev.findings v.tables ++ ev.targetRows v.model.names)) := by
  have helement := h.elements ev (List.mem_cons_self ..)
  have herrors : (v.accept ev).errors = v.errors.addAll (ev.findings v.tables) := by
    rw [errors_accept, v.findings_of_announced helement.announced]
  rw [ErrorRecord.addAll_append, ← herrors]
  cases ev with
  | declareReference entity name c =>
    rw [v.acceptChecked_of_new c (h.new _ (List.mem_cons_self ..) entity name rfl), h.names_accept]
  | _ => rfl

/-- Elements are accepted with their checks as without them, but for the rows about their
targets. -/
theorem foldl_acceptChecked (h : v.Awaits evs) :
    evs.foldl (fun v ev => (v.acceptChecked ev).2) v =
      (evs.foldl Validator.accept v).withErrors (v.errors.addAll
        (evs.flatMap fun ev => ev.findings v.tables ++ ev.targetRows v.model.names)) := by
  induction evs generalizing v with
  | nil => rfl
  | cons ev evs ih =>
    have hrest := h.accept.of_model_eq ((v.accept ev).model_withErrors
      (v.errors.addAll (ev.findings v.tables ++ ev.targetRows v.model.names)))
    obtain ⟨r, hr⟩ := (v.accept ev).foldl_accept_withErrors
      (v.errors.addAll (ev.findings v.tables ++ ev.targetRows v.model.names)) evs
    rw [List.foldl_cons, h.acceptChecked_snd, ih hrest, hr,
      withErrors_withErrors, errors_withErrors, model_withErrors, tables_withErrors, tables_accept,
      h.names_accept, List.foldl_cons, List.flatMap_cons, ← ErrorRecord.addAll_append]

end Awaits

/-- A validator inside another consumer goes through events by itself. -/
theorem inner_foldl {σ : Type} {accept : σ → Event → σ} {inner : σ → Validator}
    (hinner : ∀ c ev, inner (accept c ev) = ((inner c).acceptChecked ev).2) (evs : List Event)
    (c : σ) :
    inner (evs.foldl accept c) = evs.foldl (fun v ev => (v.acceptChecked ev).2) (inner c) :=
  (List.foldl_hom inner fun c ev => (hinner c ev).symm).symm

/-- The unknown targets are those of references of the model that are no entities of it. -/
theorem mem_unknownTargets {n r target : String} :
    (n, r, target) ∈ v.unknownTargets ↔
      ∃ c, v.model.reference? n r = some c ∧ c.target = target ∧ target ∉ v.model.names := by
  simp only [unknownTargets, List.mem_filter, List.mem_flatMap, List.mem_map, Prod.mk.injEq,
    NormalizedModel.reference?, NormalizedModel.find?, Option.bind_eq_some_iff, Bool.not_eq_true',
    NormalizedModel.contains, ← Bool.not_eq_true, OrderedMap.contains_eq_true]
  constructor
  · rintro ⟨⟨⟨n, e⟩, he, ⟨r, c⟩, hc, rfl, rfl, rfl⟩, htarget⟩
    exact ⟨c, ⟨e, v.model.entities.mem_entries.1 he, e.references.mem_entries.1 hc⟩, rfl, htarget⟩
  · rintro ⟨c, ⟨e, he, hc⟩, rfl, htarget⟩
    exact ⟨⟨(n, e), v.model.entities.mem_entries.2 he, (r, c), e.references.mem_entries.2 hc,
      rfl, rfl, rfl⟩, htarget⟩

/-- All targets are checked by filing a row for each that is unknown. -/
theorem checkTargets_snd (v : Validator) :
    v.checkTargets.2 = v.withErrors (v.errors.addAll
      (v.unknownTargets.map fun r => .ofTarget r.1 r.2.1 r.2.2)) := by
  rw [checkTargets]
  generalize v.unknownTargets = rs
  induction rs generalizing v with
  | nil => rfl
  | cons r rs ih =>
    rw [List.foldl_cons, ih]
    rfl

/-- Checking targets does not change the order. -/
theorem order_checkTargets : v.checkTargets.2.order = v.order := by
  rw [checkTargets_snd]
  rfl

end Validator

/-! ## Checks in the parse of a model -/

namespace Model

variable (t : ValidationTables) (m : Model)

/-- The rows about the references of a model whose targets are none of its entities. -/
def targetRows : List ErrorRow := m.referenceEvents.flatMap (Event.targetRows m.names)

/-- A reference of a model with an unknown target. -/
theorem mem_targetRows {row : ErrorRow} :
    row ∈ m.targetRows ↔ ∃ n e r d c, m.find? n = some e ∧ e.references.find? r = some d ∧
      d.config.complete? = some c ∧ c.target ∉ m.names ∧ row = .ofTarget n r c.target := by
  simp only [targetRows, List.mem_flatMap, mem_referenceEvents]
  constructor
  · rintro ⟨_, ⟨n, e, r, d, he, hd, rfl⟩, hrow⟩
    cases hc : d.config.complete? with
    | none => simp [Event.targetRows, hc] at hrow
    | some c =>
      by_cases htarget : c.target ∈ m.names
      · simp [Event.targetRows, hc, htarget] at hrow
      · exact ⟨n, e, r, d, c, he, hd, hc, htarget,
          by simpa [Event.targetRows, hc, htarget] using hrow⟩
  · rintro ⟨n, e, r, d, c, he, hd, hc, htarget, rfl⟩
    exact ⟨_, ⟨n, e, r, d, he, hd, rfl⟩, by simp [Event.targetRows, hc, htarget]⟩

/-- A reference of the normalized model is a declared one with a usable target. -/
theorem reference?_normalizedModel {n r : String} {c : NormalizedReference} :
    (t.normalizedModel m).reference? n r = some c ↔
      ∃ e d, m.find? n = some e ∧ e.references.find? r = some d ∧ d.config.complete? = some c := by
  simp only [NormalizedModel.reference?, NormalizedModel.find?, ValidationTables.normalizedModel,
    OrderedMap.find?_mapValues, Option.bind_map, Option.bind_eq_some_iff]
  refine exists_congr fun e => ?_
  have hreferences : (t.normalized e).references.find? r = some c ↔
      ∃ d, e.references.find? r = some d ∧ d.config.complete? = some c :=
    e.references.find?_filterMapValues
  rw [Function.comp_apply, hreferences]
  exact exists_and_left.symm

/-- In the end, the unknown targets of the normalized model are those of the declared one. -/
theorem mem_unknownTargets_validated {row : ErrorRow} :
    row ∈ ((m.validated t).unknownTargets.map fun r => .ofTarget r.1 r.2.1 r.2.2) ↔
      row ∈ m.targetRows := by
  simp only [List.mem_map, Prod.exists, Validator.mem_unknownTargets, model_validated,
    ValidationTables.names_normalizedModel, reference?_normalizedModel, mem_targetRows]
  constructor
  · rintro ⟨n, r, target, ⟨c, ⟨e, d, he, hd, hc⟩, rfl, htarget⟩, rfl⟩
    exact ⟨n, e, r, d, c, he, hd, hc, htarget, rfl⟩
  · rintro ⟨n, e, r, d, c, he, hd, hc, htarget, rfl⟩
    exact ⟨n, r, c.target, ⟨c, ⟨e, d, he, hd, hc⟩, rfl, htarget⟩, rfl⟩

/-- A reference is declared once. -/
theorem pairwise_referenceEvents :
    m.referenceEvents.Pairwise fun a b => a.reference? ≠ b.reference? := by
  refine List.pairwise_flatMap.2 ⟨fun e _ => ?_, ?_⟩
  · refine List.pairwise_map.2 ((List.pairwise_map.1 e.2.references.nodup_keys).imp ?_)
    intro a b hab h
    rw [Event.reference?, Event.reference?, Option.some.injEq, Prod.mk.injEq] at h
    exact hab h.2
  · refine (List.pairwise_map.1 m.entities.nodup_keys).imp ?_
    intro e e' hne a ha b hb h
    obtain ⟨r, -, rfl⟩ := List.mem_map.1 ha
    obtain ⟨r', -, rfl⟩ := List.mem_map.1 hb
    rw [Event.reference?, Event.reference?, Option.some.injEq, Prod.mk.injEq] at h
    exact hne h.1

/-- The validator after the first two passes over a model. -/
def prepared : Validator := m.attributeEvents.foldl .accept (m.declared t)

/-- The first two passes add the entities of the model. -/
theorem names_prepared : (m.prepared t).model.names = m.names :=
  m.names_foldl_elements (m.names_declared t) fun _ h => List.mem_append_left _ h

/-- The first two passes declare no references. -/
theorem reference?_of_mem_passes {ev : Event} (h : ev ∈ m.entityEvents ++ m.attributeEvents) :
    ev.reference? = none := by
  rw [List.mem_append, mem_entityEvents, mem_attributeEvents] at h
  rcases h with ⟨n, e, -, rfl⟩ | ⟨n, e, a, d, -, -, rfl⟩ <;> rfl

/-- An element is one of an entity of the model. -/
theorem elementOf_of_mem_elementEvents {ev : Event} (h : ev ∈ m.elementEvents) :
    ev.ElementOf m.names := by
  have hannounced := m.announced_of_mem_elementEvents h
  rcases List.mem_append.1 h with h | h
  · obtain ⟨n, e, a, d, -, -, rfl⟩ := mem_attributeEvents.1 h
    exact hannounced
  · obtain ⟨n, e, r, d, -, -, rfl⟩ := mem_referenceEvents.1 h
    exact hannounced

/-- A reference is declared by one element only. -/
theorem pairwise_elementEvents : m.elementEvents.Pairwise fun a b =>
    ∀ key, a.reference? = some key → b.reference? ≠ some key := by
  have hattributes : ∀ ev ∈ m.attributeEvents, ∀ key, ev.reference? ≠ some key := by
    intro ev hev key hkey
    rw [m.reference?_of_mem_passes (List.mem_append_right _ hev)] at hkey
    cases hkey
  refine List.pairwise_append.2 ⟨?_, ?_, ?_⟩
  · refine List.pairwise_of_forall_mem_list fun a ha _ _ key hkey => ?_
    exact absurd hkey (hattributes a ha key)
  · exact m.pairwise_referenceEvents.imp fun hab key ha hb => hab (ha.trans hb.symm)
  · exact fun a ha _ _ key hkey => absurd hkey (hattributes a ha key)

/-- After the first pass over a model, its elements are awaited. -/
theorem awaits_declared : (m.declared t).Awaits m.elementEvents where
  elements _ hev := (m.names_declared t).symm ▸ m.elementOf_of_mem_elementEvents hev
  new _ _ n r _ := Validator.reference?_foldl_of_none
    (fun _ hev => m.reference?_of_mem_passes (List.mem_append_left _ hev)) (fun _ _ => rfl) n r
  distinct := m.pairwise_elementEvents

/-- The first two passes add no references. -/
theorem reference?_prepared (n r : String) : (m.prepared t).model.reference? n r = none := by
  rw [prepared, declared, ← List.foldl_append]
  exact Validator.reference?_foldl_of_none (fun _ => m.reference?_of_mem_passes)
    (fun _ _ => rfl) n r

/-- In the first two passes there is nothing to check. -/
theorem foldl_acceptChecked_prepared :
    (m.entityEvents ++ m.attributeEvents).foldl (fun v ev => (v.acceptChecked ev).2)
      (.ofTables t) = m.prepared t := by
  rw [prepared, declared, ← List.foldl_append]
  exact List.foldl_ext _ _ _ fun v ev hev =>
    v.acceptChecked_of_reference?_eq_none (m.reference?_of_mem_passes hev)

/-- The rows of the three passes of a parse that checks each target when its reference is
handled. -/
def passRows : List ErrorRow :=
  (m.entityEvents ++ m.attributeEvents).flatMap (Event.findings t) ++
    m.referenceEvents.flatMap fun ev => ev.findings t ++ ev.targetRows m.names

/-- In the third pass, all entities are there and each reference is new. -/
theorem foldl_acceptChecked_referenceEvents :
    m.referenceEvents.foldl (fun v ev => (v.acceptChecked ev).2) (m.prepared t) =
      (m.elaborated t).withErrors (ErrorRecord.empty.addAll (m.passRows t)) := by
  have hprepared : (m.prepared t).errors =
      ErrorRecord.empty.addAll ((m.entityEvents ++ m.attributeEvents).flatMap (Event.findings t)) :=
    m.errors_foldl_elements t fun _ hev => List.mem_append_left _ hev
  have htables : (m.prepared t).tables = t := by
    rw [prepared, Validator.tables_foldl]
    exact Validator.tables_foldl ..
  have helaborated : m.referenceEvents.foldl .accept (m.prepared t) = m.elaborated t := by
    rw [prepared, elaborated, elementEvents, List.foldl_append]
  have hawaits : (m.prepared t).Awaits m.referenceEvents := by
    refine ⟨fun ev hev => ?_, fun ev _ n r _ => m.reference?_prepared t n r, ?_⟩
    · obtain ⟨n, e, r, d, he, -, rfl⟩ := mem_referenceEvents.1 hev
      exact (m.names_prepared t).symm ▸ OrderedMap.mem_keys_of_find? he
    · exact m.pairwise_referenceEvents.imp fun hab key ha hb => hab (ha.trans hb.symm)
  rw [hawaits.foldl_acceptChecked, helaborated, htables, hprepared, names_prepared,
    ← ErrorRecord.addAll_append, passRows]

/-- The rows of a parse that checks each target when its reference is handled. -/
def checkedRows : List ErrorRow := m.passRows t ++ (t.normalizedModel m).keyRows m.names

/-- A parse that checks each target when its reference is handled differs from one without checks
by its errors only. -/
theorem foldl_acceptChecked_events :
    m.events.foldl (fun v ev => (v.acceptChecked ev).2) (.ofTables t) =
      (m.validated t).withErrors (ErrorRecord.empty.addAll (m.checkedRows t)) := by
  have hfinish : ∀ w : Validator, [Event.finish].foldl (fun v ev => (v.acceptChecked ev).2) w =
      w.withErrors (w.errors.addAll (w.model.keyRows w.model.names)) := fun w =>
    w.checkEntities_eq
  rw [events_eq_passes, List.foldl_append, List.foldl_append, foldl_acceptChecked_prepared,
    foldl_acceptChecked_referenceEvents, hfinish, Validator.withErrors_withErrors,
    Validator.errors_withErrors, Validator.model_withErrors, model_elaborated,
    ValidationTables.names_normalizedModel, ← ErrorRecord.addAll_append, validated,
    Validator.checkEntities_eq, Validator.withErrors_withErrors, checkedRows]

/-- Each target that is not an entity is found in both ways of checking. -/
theorem mem_rows_checked {row : ErrorRow} :
    row ∈ (ErrorRecord.empty.addAll (m.checkedRows t)).rows ↔
      row ∈ (m.validated t).checkTargets.2.errors.rows := by
  rw [Validator.checkTargets_snd, Validator.errors_withErrors, errors_validated,
    ErrorRecord.mem_rows_addAll, ErrorRecord.mem_rows_addAll, ErrorRecord.mem_rows_addAll,
    mem_unknownTargets_validated]
  simp only [checkedRows, passRows, elementRows, targetRows, elementEvents, List.mem_append,
    List.mem_flatMap, or_and_right, and_or_left, exists_or, or_left_comm, or_assoc]

/-- After the check of all targets, the errors are well filed. -/
theorem wellFiled_checkTargets : (m.validated t).checkTargets.2.errors.WellFiled := by
  rw [Validator.checkTargets_snd]
  exact (m.wellFiled_validated t).addAll _

/-- Both ways of checking targets find nothing in the same models. -/
theorem isEmpty_checked :
    (ErrorRecord.empty.addAll (m.checkedRows t)).isEmpty =
      (m.validated t).checkTargets.2.errors.isEmpty := by
  have hchecked : (ErrorRecord.empty.addAll (m.checkedRows t)).WellFiled :=
    ErrorRecord.WellFiled.empty.addAll _
  rw [Bool.eq_iff_iff, hchecked.isEmpty_iff, (m.wellFiled_checkTargets t).isEmpty_iff]
  exact forall_congr' fun row => not_congr (m.mem_rows_checked t)

end Model

end EntityModel
