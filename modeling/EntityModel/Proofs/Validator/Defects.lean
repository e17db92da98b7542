import EntityModel.Proofs.Validator.Parse

/-!
# What a validator finds

`Defect` lists what can be wrong with a model, each with the row that tells it. It reads the model
and the tables only, and knows nothing of passes or of records. After the parse of a model without
empty names, the rows of the validator are exactly these, each once
(`parseWith_rows_iff_defect`).
-/

namespace EntityModel

/-- Something that is wrong with a model under the given tables, with the row that tells it. -/
inductive Defect (t : ValidationTables) (m : Model) : ErrorRow → Prop
  | collision {n a : String} {e : Entity} : m.find? n = some e → a ∈ e.attributes.keys →
      a ∈ t.attributes.keys →
      Defect t m ⟨n, .attributeItem, a,
        "The object has an attribute '" ++ a ++ "' which collides with a default attribute"⟩
  | attributeType {n a : String} {e : Entity} {d : AttributeDecl} {v : Value} :
      m.find? n = some e → e.attributes.find? a = some d → d.config.type = some v →
      (∀ s ∈ t.types.keys, v ≠ .text s) →
      Defect t m ⟨n, .attributeItem, a, "The given type '" ++ v.describe ++ "' is not valid"⟩
  | flagKind {n a flag : String} {e : Entity} {d : AttributeDecl} {f : FlagDefault} {v : Value} :
      m.find? n = some e → e.attributes.find? a = some d → t.flags.find? flag = some f →
      d.config.flags.find? flag = some v → f.kind.admits v = false →
      Defect t m ⟨n, .attributeItem, a,
        "The config element '" ++ flag ++ "' must be of type '" ++ f.kind.name ++ "'"⟩
  | referenceType {n r ns v : String} {e : Entity} {d : ReferenceDecl} {a : Annotation} :
      m.find? n = some e → e.references.find? r = some d →
      d.config.annotations.find? ns = some a → a.parsedType = .error v →
      Defect t m ⟨n, .referenceItem, r, "The reference type '" ++ v ++ "' in annotation '" ++ ns ++
        "' is not valid, expected one of 'single', 'list', 'connection'"⟩
  | upperBound {n r ns v : String} {e : Entity} {d : ReferenceDecl} {a : Annotation} :
      m.find? n = some e → e.references.find? r = some d →
      d.config.annotations.find? ns = some a → a.parsedUpperBound = .error v →
      Defect t m ⟨n, .referenceItem, r, "The upper bound '" ++ v ++ "' in annotation '" ++ ns ++
        "' must be of type 'number'"⟩
  | noTarget {n r : String} {e : Entity} {d : ReferenceDecl} :
      m.find? n = some e → e.references.find? r = some d →
      d.config.target ∈ [none, some .null, some (.text "")] →
      Defect t m ⟨n, .referenceItem, r, "No reference target defined"⟩
  | invalidTarget {n r : String} {e : Entity} {d : ReferenceDecl} {v : Value} :
      m.find? n = some e → e.references.find? r = some d → d.config.target = some v →
      v ≠ .null → (∀ s, v ≠ .text s) →
      Defect t m ⟨n, .referenceItem, r, "The reference target '" ++ v.describe ++ "' is not valid"⟩
  | noKey {n : String} {e : Entity} : m.find? n = some e →
      (∀ a ∈ (t.normalized e).attributes.values,
        a.flags.find? inKeyHashFlag ≠ some (.bool true)) →
      Defect t m ⟨n, .wholeObject, "-",
        "The object has no attribute which has 'in_key_hash' set to 'true'"⟩

/-! ## Single elements -/

namespace ValidationTables

variable {t : ValidationTables} {c : AttributeConfig} {msg : String}

/-- A type is wrong if it is given and no registered text. -/
theorem mem_typeErrors :
    msg ∈ t.typeErrors c ↔ ∃ v, c.type = some v ∧ (∀ s ∈ t.types.keys, v ≠ .text s) ∧
      msg = "The given type '" ++ v.describe ++ "' is not valid" := by
  unfold typeErrors
  split
  · next h => simp [h]
  · next s h =>
    by_cases hs : s ∈ t.types.keys
    · have hnone : ¬ ∀ s' ∈ t.types.keys, s ≠ s' := fun hne => hne s hs rfl
      simp [h, isType, hs, hnone]
    · have hne : ∀ s' ∈ t.types.keys, s ≠ s' := fun s' hs' he => hs (he ▸ hs')
      simpa [h, isType, hs, Value.describe] using fun _ => hne
  · next v hv h =>
    have hne : ∀ s ∈ t.types.keys, v ≠ .text s := fun s _ he => hv s he
    simpa [h] using fun _ => hne

/-- A flag of the table is wrong if it is given with a value of another kind. -/
theorem mem_flagErrors {flag : String} {f : FlagDefault} :
    msg ∈ flagErrors c flag f ↔ ∃ v, c.flags.find? flag = some v ∧ f.kind.admits v = false ∧
      msg = "The config element '" ++ flag ++ "' must be of type '" ++ f.kind.name ++ "'" := by
  unfold flagErrors AttributeConfig.flag?
  split
  · next h => simp [h]
  · next v h => by_cases hv : f.kind.admits v = true <;> simp [h, hv]

/-- What is wrong with an attribute is wrong with its type or with a flag. -/
theorem mem_attributeErrors :
    msg ∈ t.attributeErrors c ↔ msg ∈ t.typeErrors c ∨
      ∃ flag f, t.flags.find? flag = some f ∧ msg ∈ flagErrors c flag f := by
  simp only [attributeErrors, List.mem_append, List.mem_flatMap, Prod.exists,
    OrderedMap.mem_entries]

end ValidationTables

/-- What is wrong with an annotation is wrong with its type or with its bound. -/
theorem Annotation.mem_errors {a : Annotation} {ns msg : String} :
    msg ∈ a.errors ns ↔
      (∃ v, a.parsedType = .error v ∧ msg = "The reference type '" ++ v ++ "' in annotation '" ++
        ns ++ "' is not valid, expected one of 'single', 'list', 'connection'") ∨
      ∃ v, a.parsedUpperBound = .error v ∧ msg = "The upper bound '" ++ v ++ "' in annotation '" ++
        ns ++ "' must be of type 'number'" := by
  rw [errors, List.mem_append]
  cases a.parsedType <;> cases a.parsedUpperBound <;> simp

namespace ReferenceConfig

/-- The target of a reference is no usable one: it is missing, or it is no text. -/
theorem usableTarget_eq_error {c : ReferenceConfig} {msg : String} :
    c.usableTarget = .error msg ↔
      (c.target ∈ [none, some .null, some (.text "")] ∧ msg = "No reference target defined") ∨
      ∃ v, c.target = some v ∧ v ≠ .null ∧ (∀ s, v ≠ .text s) ∧
        msg = "The reference target '" ++ v.describe ++ "' is not valid" := by
  unfold usableTarget
  split
  · next h => simp [h, eq_comm]
  · next h => simp [h, eq_comm]
  · next s h => by_cases hs : s = "" <;> simp [h, hs, eq_comm]
  · next v hnull htext h =>
    have hnone : c.target ∉ [none, some .null, some (.text "")] := by
      rw [h]
      simpa using ⟨hnull, htext ""⟩
    constructor
    · intro he
      exact .inr ⟨v, h, hnull, htext, (Except.error.inj he).symm⟩
    · rintro (⟨hmem, -⟩ | ⟨v', hv', -, -, rfl⟩)
      · exact absurd hmem hnone
      · cases h.symm.trans hv'
        rfl

/-- What is wrong with a reference is wrong with an annotation or with its target. -/
theorem mem_errors {c : ReferenceConfig} {msg : String} :
    msg ∈ c.errors ↔ (∃ ns a, c.annotations.find? ns = some a ∧ msg ∈ a.errors ns) ∨
      c.usableTarget = .error msg := by
  simp only [errors, List.mem_append, List.mem_flatMap, Prod.exists, OrderedMap.mem_entries]
  cases c.usableTarget <;> simp [eq_comm]

end ReferenceConfig

/-! ## Whole models -/

section
variable {t : ValidationTables} {m : Model} {row : ErrorRow}

/-- An entity of a named model is filed under its name. -/
theorem Model.Named.fileName {n : String} {e : Entity} (h : m.Named) (he : m.find? n = some e) :
    ErrorRecord.fileName (some n) = n :=
  ErrorRecord.fileName_some (h (n, e) (m.entities.mem_entries.2 he)).1

/-- What the declaration of an entity gives are the collisions of its attributes. -/
theorem mem_findings_declareEntity {n : String} {e : Entity}
    (hn : ErrorRecord.fileName (some n) = n) :
    row ∈ (Event.declareEntity n e).findings t ↔ ∃ a ∈ e.attributes.keys, a ∈ t.attributes.keys ∧
      row = ⟨n, .attributeItem, a, ValidationTables.collisionError a⟩ := by
  simp only [Event.findings, ValidationTables.collisions, Entity.declares, List.mem_map,
    List.mem_filter, OrderedMap.contains_eq_true, hn, and_assoc, eq_comm (a := row)]
  exact exists_congr fun a => and_left_comm

/-- What the declaration of an attribute gives is what is wrong with it. -/
theorem mem_findings_declareAttribute {n a : String} {c : AttributeConfig}
    (hn : ErrorRecord.fileName (some n) = n) :
    row ∈ (Event.declareAttribute n a c).findings t ↔
      ∃ msg ∈ t.attributeErrors c, row = ⟨n, .attributeItem, a, msg⟩ := by
  simp only [Event.findings, List.mem_map, hn, eq_comm (a := row)]

/-- What the declaration of a reference gives is what is wrong with it. -/
theorem mem_findings_declareReference {n r : String} {c : ReferenceConfig}
    (hn : ErrorRecord.fileName (some n) = n) :
    row ∈ (Event.declareReference n r c).findings t ↔
      ∃ msg ∈ c.errors, row = ⟨n, .referenceItem, r, msg⟩ := by
  simp only [Event.findings, List.mem_map, hn, eq_comm (a := row)]

/-- An entity is without a key if no attribute of it has the flag of keys set to true. -/
theorem NormalizedEntity.hasKey_eq_false {e : NormalizedEntity} :
    e.hasKey = false ↔
      ∀ a ∈ e.attributes.values, a.flags.find? inKeyHashFlag ≠ some (.bool true) := by
  have hkey : ∀ a : AttributeConfig, a.inKeyHash = false ↔
      a.flags.find? inKeyHashFlag ≠ some (.bool true) := by
    intro a
    unfold AttributeConfig.inKeyHash AttributeConfig.boolFlag? AttributeConfig.flag?
    cases h : a.flags.find? inKeyHashFlag with
    | none => simp
    | some v => cases v <;> simp [Value.asBool?]
  simp only [hasKey, List.any_eq_false, Bool.not_eq_true, hkey]

/-- The rows about keys are those of the entities of the model that are without a key. -/
theorem Model.Named.mem_keyRows (h : m.Named) :
    row ∈ (t.normalizedModel m).keyRows m.names ↔
      ∃ n e, m.find? n = some e ∧ (t.normalized e).hasKey = false ∧
        row = ⟨n, .wholeObject, "-", Validator.noKeyError⟩ := by
  simp only [NormalizedModel.keyRows, List.mem_map, List.mem_filter]
  constructor
  · rintro ⟨n, ⟨hn, hkey⟩, rfl⟩
    obtain ⟨e, he⟩ := m.entities.exists_find?_of_mem hn
    refine ⟨n, e, he, ?_, ?_⟩
    · simpa [NormalizedModel.find?, ValidationTables.normalizedModel, he] using hkey
    · rw [ErrorRow.ofObject, h.fileName he]
      rfl
  · rintro ⟨n, e, he, hkey, rfl⟩
    have he' : m.entities.find? n = some e := he
    refine ⟨n, ⟨OrderedMap.mem_keys_of_find? he, ?_⟩, ?_⟩
    · simpa [NormalizedModel.find?, ValidationTables.normalizedModel, he'] using hkey
    · rw [ErrorRow.ofObject, h.fileName he]
      rfl

/-- What an element of a named model gives is a defect. -/
theorem Model.Named.defect_of_mem_elementRows (h : m.Named) (hrow : row ∈ m.elementRows t) :
    Defect t m row := by
  obtain ⟨ev, hev, hrow⟩ := List.mem_flatMap.1 hrow
  rw [elementEvents, List.mem_append, List.mem_append, mem_entityEvents, mem_attributeEvents,
    mem_referenceEvents] at hev
  rcases hev with ⟨n, e, he, rfl⟩ | ⟨n, e, a, d, he, hd, rfl⟩ | ⟨n, e, r, d, he, hd, rfl⟩
  · obtain ⟨a, ha, hat, rfl⟩ := (mem_findings_declareEntity (h.fileName he)).1 hrow
    exact .collision he ha hat
  · obtain ⟨msg, hmsg, rfl⟩ := (mem_findings_declareAttribute (h.fileName he)).1 hrow
    rcases ValidationTables.mem_attributeErrors.1 hmsg with hmsg | ⟨flag, f, hf, hmsg⟩
    · obtain ⟨v, hv, hne, rfl⟩ := ValidationTables.mem_typeErrors.1 hmsg
      exact .attributeType he hd hv hne
    · obtain ⟨v, hv, hkind, rfl⟩ := ValidationTables.mem_flagErrors.1 hmsg
      exact .flagKind he hd hf hv hkind
  · obtain ⟨msg, hmsg, rfl⟩ := (mem_findings_declareReference (h.fileName he)).1 hrow
    rcases ReferenceConfig.mem_errors.1 hmsg with ⟨ns, a, ha, hmsg⟩ | htarget
    · rcases Annotation.mem_errors.1 hmsg with ⟨v, hv, rfl⟩ | ⟨v, hv, rfl⟩
      · exact .referenceType he hd ha hv
      · exact .upperBound he hd ha hv
    · rcases ReferenceConfig.usableTarget_eq_error.1 htarget with
        ⟨hnone, rfl⟩ | ⟨v, hv, hnull, htext, rfl⟩
      · exact .noTarget he hd hnone
      · exact .invalidTarget he hd hv hnull htext

/-- What the declaration of an entity gives is among what the elements of the model give. -/
theorem Model.mem_elementRows_of_entity {n : String} {e : Entity} (he : m.find? n = some e)
    (hrow : row ∈ (Event.declareEntity n e).findings t) : row ∈ m.elementRows t :=
  List.mem_flatMap.2 ⟨_, List.mem_append_left _ (mem_entityEvents.2 ⟨n, e, he, rfl⟩), hrow⟩

/-- What is wrong with an attribute is among what the elements of the model give. -/
theorem Model.Named.mem_elementRows_of_attribute {n a msg : String} {e : Entity}
    {d : AttributeDecl} (h : m.Named) (he : m.find? n = some e) (hd : e.attributes.find? a = some d)
    (hmsg : msg ∈ t.attributeErrors d.config) :
    ⟨n, .attributeItem, a, msg⟩ ∈ m.elementRows t := by
  refine List.mem_flatMap.2 ⟨.declareAttribute n a d.config, ?_, ?_⟩
  · exact List.mem_append_right _
      (List.mem_append_left _ (mem_attributeEvents.2 ⟨n, e, a, d, he, hd, rfl⟩))
  · exact (mem_findings_declareAttribute (h.fileName he)).2 ⟨msg, hmsg, rfl⟩

/-- What is wrong with a reference is among what the elements of the model give. -/
theorem Model.Named.mem_elementRows_of_reference {n r msg : String} {e : Entity}
    {d : ReferenceDecl} (h : m.Named) (he : m.find? n = some e) (hd : e.references.find? r = some d)
    (hmsg : msg ∈ d.config.errors) : ⟨n, .referenceItem, r, msg⟩ ∈ m.elementRows t := by
  refine List.mem_flatMap.2 ⟨.declareReference n r d.config, ?_, ?_⟩
  · exact List.mem_append_right _
      (List.mem_append_right _ (mem_referenceEvents.2 ⟨n, e, r, d, he, hd, rfl⟩))
  · exact (mem_findings_declareReference (h.fileName he)).2 ⟨msg, hmsg, rfl⟩

/-- A defect of a named model is given by one of its elements, or is the lack of a key. -/
theorem Defect.mem (hdefect : Defect t m row) (h : m.Named) :
    row ∈ m.elementRows t ∨ row ∈ (t.normalizedModel m).keyRows m.names := by
  cases hdefect with
  | collision he ha hat =>
    refine .inl (Model.mem_elementRows_of_entity he ?_)
    exact (mem_findings_declareEntity (h.fileName he)).2 ⟨_, ha, hat, rfl⟩
  | attributeType he hd hv hne =>
    refine .inl (h.mem_elementRows_of_attribute he hd ?_)
    exact ValidationTables.mem_attributeErrors.2
      (.inl (ValidationTables.mem_typeErrors.2 ⟨_, hv, hne, rfl⟩))
  | flagKind he hd hf hv hkind =>
    refine .inl (h.mem_elementRows_of_attribute he hd ?_)
    exact ValidationTables.mem_attributeErrors.2
      (.inr ⟨_, _, hf, ValidationTables.mem_flagErrors.2 ⟨_, hv, hkind, rfl⟩⟩)
  | referenceType he hd ha hv =>
    refine .inl (h.mem_elementRows_of_reference he hd ?_)
    exact ReferenceConfig.mem_errors.2
      (.inl ⟨_, _, ha, Annotation.mem_errors.2 (.inl ⟨_, hv, rfl⟩)⟩)
  | upperBound he hd ha hv =>
    refine .inl (h.mem_elementRows_of_reference he hd ?_)
    exact ReferenceConfig.mem_errors.2
      (.inl ⟨_, _, ha, Annotation.mem_errors.2 (.inr ⟨_, hv, rfl⟩)⟩)
  | noTarget he hd hnone =>
    refine .inl (h.mem_elementRows_of_reference he hd ?_)
    exact ReferenceConfig.mem_errors.2
      (.inr (ReferenceConfig.usableTarget_eq_error.2 (.inl ⟨hnone, rfl⟩)))
  | invalidTarget he hd hv hnull htext =>
    refine .inl (h.mem_elementRows_of_reference he hd ?_)
    exact ReferenceConfig.mem_errors.2
      (.inr (ReferenceConfig.usableTarget_eq_error.2 (.inr ⟨_, hv, hnull, htext, rfl⟩)))
  | noKey he hkey =>
    exact .inr (h.mem_keyRows.2 ⟨_, _, he, NormalizedEntity.hasKey_eq_false.2 hkey, rfl⟩)

/-- After the parse of a named model, the rows are its defects. -/
theorem Model.Named.mem_rows_validated (h : m.Named) :
    row ∈ (m.validated t).errors.rows ↔ Defect t m row := by
  rw [errors_validated, ErrorRecord.mem_rows_addAll, List.mem_append, ErrorRecord.rows_empty]
  constructor
  · rintro ((hrow | hrow) | hrow)
    · exact h.defect_of_mem_elementRows hrow
    · obtain ⟨n, e, he, hkey, rfl⟩ := h.mem_keyRows.1 hrow
      exact .noKey he (NormalizedEntity.hasKey_eq_false.1 hkey)
    · cases hrow
  · exact fun hdefect => .inl (hdefect.mem h)

end

/-! ## Main statement -/

/-- A validator that parses a model without empty names finds exactly what is wrong with it, each
row once, and judges the normalized model; it is valid if nothing is wrong. -/
theorem parseWith_rows_iff_defect (t : ValidationTables) (m : Model) (h : m.Named) :
    ∃ v, m.parseWith (Validator.ofTables t) = (v, none) ∧
      v.model = t.normalizedModel m ∧
      v.errors.rows.Nodup ∧
      (∀ row, row ∈ v.errors.rows ↔ Defect t m row) ∧
      (v.isValid = true ↔ ∀ row, ¬ Defect t m row) := by
  have hrows : ∀ row, row ∈ (m.validated t).errors.rows ↔ Defect t m row :=
    fun _ => h.mem_rows_validated
  refine ⟨m.validated t, h.parseWith_validator t, m.model_validated t,
    (m.wellFiled_validated t).nodup_rows, hrows, ?_⟩
  rw [Validator.isValid, (m.wellFiled_validated t).isEmpty_iff]
  exact forall_congr' fun row => not_congr (hrows row)

/-- An attribute that collides with a built-in one and a reference without a target, both found. -/
theorem parseWith_rows_of_person :
    let m := Model.empty.insert "Person" ((Entity.empty.withAttribute "__id_hash"
      (.shorthand (.text "string"))).withReference "boss" (.shorthand .null))
    m.Named ∧ ∃ v, m.parseWith (Validator.ofTables .builtIn) = (v, none) ∧
      ⟨"Person", .attributeItem, "__id_hash",
        "The object has an attribute '__id_hash' which collides with a default attribute"⟩
        ∈ v.errors.rows ∧
      ⟨"Person", .referenceItem, "boss", "No reference target defined"⟩ ∈ v.errors.rows ∧
      v.isValid ≠ true := by
  intro m
  have hnamed : m.Named := by decide
  obtain ⟨v, hparse, -, -, hrows, hvalid⟩ := parseWith_rows_iff_defect .builtIn m hnamed
  have hcollision : Defect .builtIn m ⟨"Person", .attributeItem, "__id_hash",
      "The object has an attribute '__id_hash' which collides with a default attribute"⟩ :=
    .collision rfl (by decide) (by decide)
  have htarget : Defect .builtIn m ⟨"Person", .referenceItem, "boss",
      "No reference target defined"⟩ := .noTarget rfl rfl (by decide)
  exact ⟨hnamed, v, hparse, (hrows _).2 hcollision, (hrows _).2 htarget,
    fun h => hvalid.1 h _ htarget⟩

end EntityModel
