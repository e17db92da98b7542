import EntityModel.Proofs.Parse.History
import EntityModel.Proofs.Validator.NormalForm
import EntityModel.Proofs.Validator.Operations

/-!
# Validators that parse several models

A validator keeps what it holds from parse to parse. An entity that is declared again is put in
place of the earlier one, with its references (`Validator.find?_foldl_parses`), but the graph still
has the edges of both (`edges_held_iff_dependencies_kept`). So after several parses the graph is
that of the model exactly if no entity was declared again without a dependency that it had.
-/

namespace EntityModel

open Relation

/-! ## References of entities and models -/

/-- The entity declares a reference with this target, which has to be usable. -/
def Entity.RefersTo (e : Entity) (target : String) : Prop :=
  target ≠ "" ∧ ∃ r d, e.references.find? r = some d ∧ d.config.targetName? = some target

/-- The model holds a reference of an entity to the target. -/
def NormalizedModel.RefersTo (m : NormalizedModel) (n target : String) : Prop :=
  ∃ r c, m.reference? n r = some c ∧ c.target = target

/-- A reference is normalized to one with its target, if the target is usable. -/
theorem ReferenceConfig.exists_complete? {c : ReferenceConfig} {target : String} :
    (∃ r, c.complete? = some r ∧ r.target = target) ↔
      target ≠ "" ∧ c.targetName? = some target := by
  rw [c.complete?_eq]
  constructor
  · rintro ⟨r, hr, rfl⟩
    obtain ⟨s, hs, rfl⟩ := Option.map_eq_some_iff.1 hr
    obtain ⟨hs, hne⟩ := Option.filter_eq_some_iff.1 hs
    exact ⟨by simpa using hne, hs⟩
  · rintro ⟨hne, hc⟩
    exact ⟨⟨target, c.description.getD "", c.annotations⟩, by simp [hc, Option.filter, hne], rfl⟩

/-- A normalized entity has the references that its declaration has. -/
theorem ValidationTables.refersTo_normalized (t : ValidationTables) {e : Entity} {target : String} :
    (∃ r c, (t.normalized e).references.find? r = some c ∧ c.target = target) ↔
      e.RefersTo target := by
  have hreferences : ∀ r c, (t.normalized e).references.find? r = some c ↔
      ∃ d, e.references.find? r = some d ∧ d.config.complete? = some c :=
    fun r c => e.references.find?_filterMapValues
  simp only [hreferences]
  constructor
  · rintro ⟨r, c, ⟨d, hd, hc⟩, htarget⟩
    obtain ⟨hne, hname⟩ := ReferenceConfig.exists_complete?.1 ⟨c, hc, htarget⟩
    exact ⟨hne, r, d, hd, hname⟩
  · rintro ⟨hne, r, d, hd, hname⟩
    obtain ⟨c, hc, htarget⟩ := ReferenceConfig.exists_complete?.2 ⟨hne, hname⟩
    exact ⟨r, c, ⟨d, hd, hc⟩, htarget⟩

/-- The references of an entity of a model, if it is a normalized one. -/
theorem NormalizedModel.refersTo_of_find? {t : ValidationTables} {m : NormalizedModel} {n : String}
    {o : Option Entity} (h : m.find? n = o.map t.normalized) {target : String} :
    m.RefersTo n target ↔ ∃ e, o = some e ∧ e.RefersTo target := by
  unfold RefersTo reference?
  rw [h]
  cases o with
  | none => simp
  | some e => simpa using t.refersTo_normalized

/-- The dependencies that a model declares are the references of its entities. -/
theorem Model.mem_dependencies_iff_refersTo (m : Model) {s x : String} :
    (s, x) ∈ m.events.flatMap Event.dependencies ↔
      ∃ e, m.find? s = some e ∧ e.RefersTo x := by
  have hfind : (ValidationTables.builtIn.normalizedModel m).find? s =
      (m.find? s).map ValidationTables.builtIn.normalized := m.entities.find?_mapValues _ s
  rw [m.mem_dependencies_events .builtIn]
  exact NormalizedModel.refersTo_of_find? hfind

/-! ## Entities after parses in turn -/

/-- What the last of the models to declare an entity says of it. -/
def Model.latest? (ms : List Model) (n : String) : Option Entity :=
  ms.reverse.findSome? fun m => m.find? n

/-- A further model takes the place of the others for the entities that it declares. -/
theorem Model.latest?_concat (ms : List Model) (m : Model) (n : String) :
    Model.latest? (ms ++ [m]) n = (m.find? n).or (Model.latest? ms n) := by
  rw [latest?, List.reverse_concat, List.findSome?_cons]
  cases m.find? n <;> rfl

/-- No event of a model is about an entity that it does not declare. -/
theorem Model.filter_events_of_none {m : Model} {n : String} (h : m.find? n = none) :
    (m.events.filter fun ev => ev.entity? = some n) = [] := by
  refine List.filter_eq_nil_iff.2 fun ev hev hn => ?_
  have hn : ev.entity? = some n := by simpa using hn
  rcases mem_events.1 hev with
    ⟨n', e, he, rfl⟩ | ⟨n', e, a, d, he, -, rfl⟩ | ⟨n', e, r, d, he, -, rfl⟩ | rfl
  · cases hn
    simp [h] at he
  · cases hn
    simp [h] at he
  · cases hn
    simp [h] at he
  · cases hn

namespace Validator

variable (v : Validator)

/-- A parse puts the normal forms of the entities of its model in their places. -/
theorem find?_foldl_events (m : Model) (n : String) :
    (m.events.foldl accept v).model.find? n =
      ((m.find? n).map v.tables.normalized).or (v.model.find? n) := by
  rw [find?_foldl]
  cases he : m.find? n with
  | none => simp [Model.filter_events_of_none he]
  | some e =>
    have hevents : (m.events.filter fun ev => ev.entity? = some n) = e.events n := by
      rw [Model.events_eq, List.filter_append, Model.filter_passes he]
      exact List.append_nil _
    rw [hevents, ValidationTables.foldl_events]
    rfl

/-- After several parses, each entity is what the last model to declare it says. -/
theorem find?_foldl_parses (ms : List Model) (n : String) :
    ((ms.flatMap Model.events).foldl accept v).model.find? n =
      ((Model.latest? ms n).map v.tables.normalized).or (v.model.find? n) := by
  induction ms using List.reverseRecOn with
  | nil => rfl
  | append_singleton ms m ih =>
    rw [List.flatMap_append, List.foldl_append, List.flatMap_singleton, find?_foldl_events,
      tables_foldl, ih, Model.latest?_concat]
    cases m.find? n <;> rfl

/-- After several parses, the dependencies are those that any of the models declared. -/
theorem mem_dependencies_foldl_parses (t : ValidationTables) (ms : List Model) (s x : String) :
    x ∈ ((ms.flatMap Model.events).foldl accept (ofTables t)).graph.dependencies s ↔
      ∃ m ∈ ms, ∃ e, m.find? s = some e ∧ e.RefersTo x := by
  rw [DependencyGraph.dependencies, edges_foldl, DependencyGraph.mem_targetsIn_foldl,
    List.flatMap_assoc, List.mem_flatMap]
  simp only [Model.mem_dependencies_iff_refersTo]
  exact or_iff_right List.not_mem_nil

/-- After several parses, the model has the references of the last declarations. -/
theorem refersTo_foldl_parses (t : ValidationTables) (ms : List Model) (s x : String) :
    ((ms.flatMap Model.events).foldl accept (ofTables t)).model.RefersTo s x ↔
      ∃ e, Model.latest? ms s = some e ∧ e.RefersTo x := by
  have hfind := (ofTables t).find?_foldl_parses ms s
  rw [show (ofTables t).model.find? s = none from rfl, Option.or_none] at hfind
  exact NormalizedModel.refersTo_of_find? hfind

/-! ## Orders of graphs that say what the model says -/

/-- A linked graph that has edges for references only, all of them to entities and none on a cycle,
has an order. -/
theorem Linked.exists_order {v : Validator} (h : v.Linked)
    (hheld : ∀ s, ∀ x ∈ v.graph.dependencies s, v.model.RefersTo s x)
    (hknown : v.checkTargets.1 = 0) (hacyclic : ∀ n, ¬ TransGen v.model.RefersTo n n) :
    ∃ order, v.order = .ok order := by
  have hnone : v.unknownTargets = [] := List.length_eq_zero_iff.1 hknown
  have hnode : ∀ s x, v.model.RefersTo s x → x ∈ v.graph.nodes := by
    rintro s x ⟨r, c, hc, hx⟩
    by_contra hx'
    have hmem := v.mem_unknownTargets.2 ⟨c, hc, hx, h.nodes_eq ▸ hx'⟩
    rw [hnone] at hmem
    cases hmem
  have hstep : ∀ s x, DependsOn (targetsIn v.graph.edges) v.graph.nodes s x →
      v.model.RefersTo s x := fun s x hsx => hheld s x hsx.2
  refine exists_emissionOrder _ _ fun n hn hblocked => ?_
  obtain ⟨last, hway, hcycle | hout⟩ := hblocked
  · exact hacyclic last (TransGen.mono hstep last last hcycle)
  · -- the way ends at a node: it starts at one, and its edges lead to entities
    rcases ReflTransGen.cases_tail hway with rfl | ⟨s, -, hs⟩
    · exact hout hn
    · exact hout (hnode s last (hstep s last hs))

end Validator

/-! ## Main statement -/

/-- Whenever a model declared a dependency of an entity, so does the last model to declare the
entity. -/
def Model.DependenciesKept (ms : List Model) : Prop :=
  ∀ m ∈ ms, ∀ s e, m.find? s = some e → ∀ x, e.RefersTo x →
    ∃ e', Model.latest? ms s = some e' ∧ e'.RefersTo x

/-- After parses in turn, the graph has the dependencies that any of the models declared, and the
model has the references of the last declarations. So the edges are references that the model holds
exactly if later declarations keep the dependencies of earlier ones. If they do, then entities that
refer to each other without a cycle, and to nothing unknown, have an order. -/
theorem edges_held_iff_dependencies_kept (t : ValidationTables) {ms : List Model} {v : Validator}
    (h : Model.parseInTurn ms (Validator.ofTables t) = (v, none)) :
    (∀ s x, x ∈ v.graph.dependencies s ↔ ∃ m ∈ ms, ∃ e, m.find? s = some e ∧ e.RefersTo x) ∧
      (∀ s x, v.model.RefersTo s x ↔ ∃ e, Model.latest? ms s = some e ∧ e.RefersTo x) ∧
      ((∀ s, ∀ x ∈ v.graph.dependencies s, v.model.RefersTo s x) ↔ Model.DependenciesKept ms) ∧
      (Model.DependenciesKept ms → v.checkTargets.1 = 0 →
        (∀ n, ¬ TransGen v.model.RefersTo n n) → ∃ order, v.order = .ok order) := by
  obtain ⟨-, rfl⟩ := Model.of_parseInTurn Validator.handle_eq_ok h
  have hlinked : ((ms.flatMap Model.events).foldl Validator.accept (.ofTables t)).Linked :=
    (Validator.Linked.ofTables t).foldl_accept _
  have hedges := Validator.mem_dependencies_foldl_parses t ms
  have hmodel := Validator.refersTo_foldl_parses t ms
  generalize (ms.flatMap Model.events).foldl Validator.accept (.ofTables t) = v at *
  have hiff : (∀ s, ∀ x ∈ v.graph.dependencies s, v.model.RefersTo s x) ↔
      Model.DependenciesKept ms := by
    simp only [hedges, hmodel]
    constructor
    · exact fun hheld m hm s e he x hx => hheld s x ⟨m, hm, e, he, hx⟩
    · rintro hkept s x ⟨m, hm, e, he, hx⟩
      exact hkept m hm s e he x hx
  exact ⟨hedges, hmodel, hiff, fun hkept => hlinked.exists_order (hiff.2 hkept)⟩

/-- A pet had an owner and is declared again without one, by a model in which the owner has the pet:
no cycle of references is left, and no order either. -/
theorem edges_outlive_references :
    let key := AttributeDecl.full (AttributeConfig.empty.withFlag "in_key_hash" (.bool true))
    let keyed := Entity.empty.withAttribute "id" key
    let first := (Model.empty.insert "Pet"
      (keyed.withReference "owner" (.shorthand (.text "Person")))).insert "Person" keyed
    let owner := keyed.withReference "pet" (.shorthand (.text "Pet"))
    let second := (Model.empty.insert "Pet" keyed).insert "Person" owner
    ∃ v, Model.parseInTurn [first, second] (Validator.ofTables .builtIn) = (v, none) ∧
      "Person" ∈ v.graph.dependencies "Pet" ∧ ¬ v.model.RefersTo "Pet" "Person" ∧
      v.isValid = true ∧ v.checkTargets.1 = 0 ∧ (∀ n, ¬ TransGen v.model.RefersTo n n) ∧
      v.order = .error ⟨[], ["Pet", "Person"]⟩ := by
  intro key keyed first owner second
  have hrun : let r := Model.parseInTurn [first, second] (Validator.ofTables .builtIn)
      r.2 = none ∧ r.1.isValid = true ∧ r.1.checkTargets.1 = 0 ∧
        r.1.order = .error ⟨[], ["Pet", "Person"]⟩ := by
    decide +kernel
  rcases hparse : Model.parseInTurn [first, second] (Validator.ofTables .builtIn) with ⟨v, f⟩
  rw [hparse] at hrun
  obtain ⟨rfl, hvalid, hknown, horder⟩ := hrun
  obtain ⟨hedges, hmodel, -, -⟩ := edges_held_iff_dependencies_kept .builtIn hparse
  have hlatest : ∀ s, Model.latest? [first, second] s =
      if "Person" = s then some owner else if "Pet" = s then some keyed else none := by
    intro s
    by_cases hperson : "Person" = s <;> by_cases hpet : "Pet" = s <;>
      simp [Model.latest?, Model.find?, Model.insert, Model.empty, first, second, hperson, hpet]
  have hreferences : ∀ s x, v.model.RefersTo s x → s = "Person" ∧ x = "Pet" := by
    intro s x hx
    obtain ⟨e, he, -, r, d, hd, hname⟩ := (hmodel s x).1 hx
    rw [hlatest] at he
    by_cases hperson : "Person" = s
    · obtain rfl : owner = e := by simpa [hperson] using he
      have hdeclared : "pet" = r ∧ .shorthand (.text "Pet") = d := by
        simpa [owner, keyed, Entity.withReference, Entity.withAttribute, Entity.empty] using hd
      obtain ⟨-, rfl⟩ := hdeclared
      exact ⟨hperson.symm, (Option.some.inj hname).symm⟩
    · obtain ⟨-, rfl⟩ : "Pet" = s ∧ keyed = e := by simpa [hperson] using he
      cases hd
  refine ⟨v, rfl, ?_, ?_, hvalid, hknown, ?_, horder⟩
  · refine (hedges "Pet" "Person").2 ⟨first, List.mem_cons_self .., _, rfl, by decide, ?_⟩
    exact ⟨"owner", _, rfl, rfl⟩
  · exact fun hpet => absurd (hreferences _ _ hpet).1 (by decide)
  · intro n hn
    obtain ⟨x, hnx, -⟩ := TransGen.head'_iff.1 hn
    obtain ⟨s, -, hsn⟩ := TransGen.tail'_iff.1 hn
    have hpet : n = "Pet" := (hreferences s n hsn).2
    rw [(hreferences n x hnx).1] at hpet
    exact absurd hpet (by decide)

end EntityModel
