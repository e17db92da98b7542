import EntityModel.Proofs.Validator.Dependencies

/-!
# The normalized model of a parse

`ValidationTables.NormalForm` says what a declared entity is normalized to, entry by entry: nothing
is lost, repeated or put elsewhere, and a default stands only where nothing was declared. The parse
of a model without empty names makes of each entity its normal form, in declared order, and of its
references the edges of the graph (`parseWith_normalForm`).
-/

namespace EntityModel

namespace ValidationTables

/-! ## Normal forms -/

/-- An attribute with its defaults: the type that it lacks, and behind its flags those of the table
that it lacks. -/
structure Completed (t : ValidationTables) (declared c : AttributeConfig) : Prop where
  type : c.type = some (declared.type.getD (.text "string"))
  description : c.description = declared.description
  flags : c.flags.entries = declared.flags.entries ++
    (t.flags.entries.filter fun f => f.1 ∉ declared.flags.keys).map fun f => (f.1, f.2.value)

/-- What an entity is normalized to: the attributes of the table that it does not declare, then its
own with their defaults, and its references whose target is a text that is not empty. -/
structure NormalForm (t : ValidationTables) (e : Entity) (ne : NormalizedEntity) : Prop where
  description : ne.description = e.description.getD ""
  attributes : ∃ own, ne.attributes.entries =
      (t.attributes.entries.filter fun a => a.1 ∉ e.attributes.keys) ++ own ∧
    List.Forall₂ (fun declared a => a.1 = declared.1 ∧ t.Completed declared.2.config a.2)
      e.attributes.entries own
  references : ne.references.entries = e.references.entries.filterMap fun r =>
    (r.2.config.targetName?.filter (· ≠ "")).map fun target =>
      (r.1, ⟨target, r.2.config.description.getD "", r.2.config.annotations⟩)

/-- Setting flags of distinct names appends those that are not there. -/
theorem entries_foldl_addFlag {fs : List (String × FlagDefault)} (hfs : (fs.map Prod.fst).Nodup)
    (flags : OrderedMap String Value) :
    (fs.foldl (fun flags f => addFlag flags f.1 f.2.value) flags).entries = flags.entries ++
      (fs.filter fun f => f.1 ∉ flags.keys).map fun f => (f.1, f.2.value) := by
  induction fs generalizing flags with
  | nil => simp
  | cons f fs ih =>
    rw [List.map_cons, List.nodup_cons] at hfs
    rw [List.foldl_cons, ih hfs.2]
    by_cases hf : f.1 ∈ flags.keys
    · have hkept : addFlag flags f.1 f.2.value = flags := by simp [addFlag, hf]
      simp [hkept, hf]
    · have hadded : addFlag flags f.1 f.2.value = flags.insert f.1 f.2.value := by
        simp [addFlag, hf]
      have hentries : (flags.insert f.1 f.2.value).entries =
          flags.entries ++ [(f.1, f.2.value)] := OrderedMap.upsertIn_eq_append hf _
      -- The names are distinct, so a later flag is not among those given because of this one.
      have hrest : (fs.filter fun f' => f'.1 ∉ (flags.insert f.1 f.2.value).keys) =
          fs.filter fun f' => f'.1 ∉ flags.keys := by
        refine List.filter_congr fun f' hf' => ?_
        have hne : f'.1 ≠ f.1 := fun he => hfs.1 (he ▸ List.mem_map_of_mem (f := Prod.fst) hf')
        simp [hf, hne]
      rw [hadded, hentries, hrest]
      simp [hf]

variable (t : ValidationTables)

/-- The defaults of an attribute are those that it lacks. -/
theorem completed_complete (c : AttributeConfig) : t.Completed c (t.complete c) where
  type := rfl
  description := rfl
  flags := entries_foldl_addFlag t.flags.nodup_keys c.flags

end ValidationTables

/-- A target can be used if it is a text that is not empty. -/
theorem ReferenceConfig.complete?_eq (c : ReferenceConfig) :
    c.complete? = (c.targetName?.filter (· ≠ "")).map fun target =>
      ⟨target, c.description.getD "", c.annotations⟩ := by
  unfold complete? usableTarget targetName?
  cases c.target with
  | none => rfl
  | some v =>
    cases v with
    | text s => by_cases hs : s = "" <;> simp [Value.asText?, Option.filter, hs]
    | _ => rfl

/-- What is known of a reference is what it declares. -/
theorem ReferenceConfig.of_complete? {c : ReferenceConfig} {r : NormalizedReference}
    (h : c.complete? = some r) : c.targetName? = some r.target ∧
      r.description = c.description.getD "" ∧ r.annotations = c.annotations := by
  rw [complete?_eq, Option.map_eq_some_iff] at h
  obtain ⟨target, htarget, rfl⟩ := h
  exact ⟨(Option.filter_eq_some_iff.1 htarget).1, rfl, rfl⟩

/-- A reference that nothing is wrong with has a usable target. -/
theorem ReferenceConfig.exists_complete?_of_errors {c : ReferenceConfig} (h : c.errors = []) :
    ∃ r, c.complete? = some r := by
  obtain ⟨-, htarget⟩ := List.append_eq_nil_iff.1 h
  unfold complete?
  cases hc : c.usableTarget with
  | error message => simp [hc] at htarget
  | ok target => exact ⟨_, rfl⟩

namespace ValidationTables

variable (t : ValidationTables)

/-- An entity is normalized to its normal form. -/
theorem normalForm_normalized (e : Entity) : t.NormalForm e (t.normalized e) where
  description := rfl
  attributes := by
    refine ⟨(e.attributes.mapValues fun _ a => t.complete a.config).entries, ?_, ?_⟩
    · refine congrArg (· ++ _) (List.filter_congr fun a _ => ?_)
      have hdeclares : e.declares a.1 = true ↔ a.1 ∈ e.attributes.keys :=
        e.attributes.contains_eq_true
      rw [Bool.eq_iff_iff]
      simp [← hdeclares]
    · refine List.forall₂_map_right_iff.2 (List.forall₂_same.2 fun a _ => ⟨rfl, ?_⟩)
      exact t.completed_complete a.2.config
  references := by
    refine List.filterMap_congr fun r _ => ?_
    have hc := r.2.config.complete?_eq
    simp only [hc, Option.map_map]
    rfl

end ValidationTables

/-! ## Main statement -/

/-- A validator that parses a model without empty names ends with the normal forms of its entities
in declared order, and with a graph of these entities whose edges, each listed once, lead from an
entity to the targets of its normalized references. -/
theorem parseWith_normalForm (t : ValidationTables) (m : Model) (h : m.Named) :
    ∃ v, m.parseWith (Validator.ofTables t) = (v, none) ∧
      List.Forall₂ (fun declared ne => ne.1 = declared.1 ∧ t.NormalForm declared.2 ne.2)
        m.entities.entries v.model.entities.entries ∧
      v.graph.nodes = m.names ∧
      v.graph.edgeList.Nodup ∧
      ∀ s x, (s, x) ∈ v.graph.edgeList ↔
        ∃ r c, v.model.reference? s r = some c ∧ c.target = x := by
  refine ⟨m.validated t, h.parseWith_validator t, ?_, m.nodes_validated t,
    m.nodup_edgeList_validated t, fun s x => ?_⟩
  · rw [Model.model_validated]
    refine List.forall₂_map_right_iff.2 (List.forall₂_same.2 fun e _ => ⟨rfl, ?_⟩)
    exact t.normalForm_normalized e.2
  · rw [DependencyGraph.mem_edgeList, Model.model_validated]
    exact m.mem_dependencies_validated t

/-- An entity that refers to itself; its other reference is without a target, and vanishes. -/
theorem parseWith_normalForm_of_person :
    let dated := Entity.empty.withAttribute "__id_hash" (.shorthand (.text "date"))
    let person := (dated.withReference "boss" (.shorthand (.text "Person"))).withReference
      "home" (.shorthand .null)
    let m := Model.empty.insert "Person" person
    m.Named ∧ ∃ v ne, m.parseWith (Validator.ofTables .builtIn) = (v, none) ∧
      v.model.entities.entries = [("Person", ne)] ∧
      ne.attributes.keys = ["__id_unique", "__content_hash", "__id_hash"] ∧
      ne.references.entries = [("boss", ⟨"Person", "", .empty⟩)] ∧
      v.graph.nodes = ["Person"] ∧ ("Person", "Person") ∈ v.graph.edgeList := by
  intro dated person m
  have hnamed : m.Named := by decide
  obtain ⟨v, hparse, hentities, hnodes, -, hedges⟩ := parseWith_normalForm .builtIn m hnamed
  have hentries : m.entities.entries = [("Person", person)] := rfl
  rw [hentries, List.forall₂_cons_left_iff] at hentities
  obtain ⟨⟨n, ne⟩, rest, ⟨hn, hform⟩, hrest, hv⟩ := hentities
  obtain rfl : n = "Person" := hn
  obtain rfl := List.forall₂_nil_left_iff.1 hrest
  obtain ⟨own, hattributes, hown⟩ := hform.attributes
  have hreferences : ne.references.entries = [("boss", ⟨"Person", "", .empty⟩)] := hform.references
  refine ⟨hnamed, v, ne, hparse, hv, ?_, hreferences, hnodes, ?_⟩
  · have hdeclared : person.attributes.entries = [("__id_hash", .shorthand (.text "date"))] := rfl
    rw [hdeclared, List.forall₂_cons_left_iff] at hown
    obtain ⟨⟨a, c⟩, rest, ⟨ha, -⟩, hrest, rfl⟩ := hown
    obtain rfl : a = "__id_hash" := ha
    obtain rfl := List.forall₂_nil_left_iff.1 hrest
    rw [OrderedMap.keys, hattributes]
    rfl
  · refine (hedges "Person" "Person").2 ⟨"boss", ⟨"Person", "", .empty⟩, ?_, rfl⟩
    simp [NormalizedModel.reference?, NormalizedModel.find?, OrderedMap.find?, hv, hreferences,
      OrderedMap.lookupIn]

end EntityModel
