import EntityModel.Proofs.Config.Tables
import EntityModel.Proofs.Parse.History
import EntityModel.Proofs.Validator.Defects
import EntityModel.Proofs.Validator.NormalForm

/-!
# The JSON of a valid model

The normalized model of a valid parse is written as JSON with the flags of an attribute next to its
type and description. The tables are free to name a flag like one of these fields, and to give
attributes that no JSON can stand for, so not every valid model is read back. With whole numbers it
is read back exactly if its attributes are legible (`valid_read_back_iff`), in particular if the
model was read from JSON and the tables are legible (`ValidationTables.Legible`). What was judged
valid besides, the types of attributes and the annotations of references, is always read back.
-/

namespace EntityModel

open Document (ReadsBack)
open NormalizedModel (attributeDepth)

/-! ## Annotations without errors -/

/-- A bound of 64 bits is a whole number. -/
theorem Value.of_asInt64? {v : Value} {k : Int} (h : v.asInt64? = some k) :
    v = .number (.int k) ∧ (Number.int k).Whole := by
  cases v with
  | number x =>
    cases x with
    | int k' =>
      obtain ⟨hfits, heq⟩ := Option.ite_none_right_eq_some.1 h
      obtain rfl := Option.some.inj heq
      simp only [Number.fitsSigned64, Bool.and_eq_true, decide_eq_true_eq] at hfits
      refine ⟨rfl, hfits.1, ?_⟩
      omega
    | real x => cases h
  | _ => cases h

/-- An annotation without a wrong type or bound is read back. -/
theorem Annotation.readsBack_of_parsed {n : Nat} {a : Annotation}
    (htype : ∀ msg, a.parsedType ≠ .error msg) (hbound : ∀ msg, a.parsedUpperBound ≠ .error msg) :
    ReadsBack ofDocument? toDocument (n + 1) a := by
  have hnumber : ∀ v ∈ a.upperBound, ∃ k, v.asInt64? = some k := by
    intro v hv
    refine Option.ne_none_iff_exists'.1 fun hnone => hbound v.describe ?_
    simp [parsedUpperBound, Option.mem_def.1 hv, hnone]
  have htext : ∀ v ∈ a.referenceType, ∃ s, v = .text s := by
    intro v hv
    cases v with
    | text s => exact ⟨s, rfl⟩
    | _ => exact absurd (by rw [parsedType, Option.mem_def.1 hv]; rfl) (htype _)
  refine readsBack_of_values ⟨fun hnull => ?_, fun v hv => ?_⟩ ⟨fun hnull => ?_, fun v hv => ?_⟩
  · obtain ⟨k, hk⟩ := hnumber _ hnull
    cases hk
  · obtain ⟨k, hk⟩ := hnumber v hv
    obtain ⟨rfl, hwhole⟩ := Value.of_asInt64? hk
    exact ⟨.number hwhole, rfl⟩
  · obtain ⟨s, hs⟩ := htext _ hnull
    cases hs
  · obtain ⟨s, rfl⟩ := htext v hv
    exact ⟨.text s, rfl⟩

/-! ## Attributes with their defaults -/

namespace ValidationTables

variable {t : ValidationTables} {c : AttributeConfig}

/-- A flag of an attribute with its defaults is its own or one of the table. -/
theorem mem_flags_complete {f : String × Value} (h : f ∈ (t.complete c).flags.entries) :
    f ∈ c.flags.entries ∨ ∃ d, (f.1, d) ∈ t.flags.entries ∧ f.2 = d.value := by
  rw [(t.completed_complete c).flags, List.mem_append] at h
  refine h.imp_right fun h => ?_
  obtain ⟨d, hd, rfl⟩ := List.mem_map.1 h
  exact ⟨d.2, List.mem_of_mem_filter hd, rfl⟩

/-- A value of an attribute with its defaults is its own, the default type, or one of the table. -/
theorem mem_values_complete {v : Value} (h : v ∈ (t.complete c).values) :
    v ∈ c.values ∨ v = .text defaultAttributeType ∨ ∃ d ∈ t.flags.values, v = d.value := by
  rcases List.mem_append.1 h with h | h
  · have htype : v = c.type.getD (.text defaultAttributeType) := List.mem_singleton.1 h
    cases hc : c.type with
    | none => exact .inr (.inl (by rw [htype, hc]; rfl))
    | some w =>
      rw [hc] at htype
      exact .inl (List.mem_append_left _ (Option.mem_toList.2 (htype ▸ hc)))
  · obtain ⟨f, hf, rfl⟩ := List.mem_map.1 h
    rcases mem_flags_complete hf with hf | ⟨d, hd, heq⟩
    · exact .inl (List.mem_append_right _ (List.mem_map_of_mem hf))
    · exact .inr (.inr ⟨d, List.mem_map_of_mem hd, heq⟩)

/-- Defaults of whole numbers keep an attribute one of whole numbers. -/
theorem Integral.complete (h : t.Integral) (hc : c.Integral) : (t.complete c).Integral := by
  intro v hv
  rcases mem_values_complete hv with hv | rfl | ⟨d, hd, rfl⟩
  · exact hc v hv
  · exact .text _
  · exact h.flags d hd

/-- Legible defaults keep an attribute legible. -/
theorem Legible.complete (h : t.Legible) (hc : c.Legible attributeDepth) :
    (t.complete c).Legible attributeDepth := by
  refine ⟨fun name hname => ?_, fun htype => ?_, fun v hv => ?_⟩
  · obtain ⟨f, hf, rfl⟩ := List.mem_map.1 hname
    rcases mem_flags_complete hf with hf | ⟨d, hd, -⟩
    · exact hc.names _ (List.mem_map_of_mem hf)
    · exact h.names _ (List.mem_map_of_mem (f := Prod.fst) hd)
  · have htype : c.type.getD (.text defaultAttributeType) = .null := Option.some.inj htype
    cases hv : c.type with
    | none => rw [hv] at htype; cases htype
    | some v => exact hc.type (hv.trans (congrArg some (by rwa [hv] at htype)))
  · rcases mem_values_complete hv with hv | rfl | ⟨d, hd, rfl⟩
    · exact hc.nested v hv
    · exact .text _
    · exact h.nested d hd

/-- The attributes of a normalized entity that collide with none of the table. -/
theorem values_attributes_normalized {e : Entity}
    (h : ∀ a ∈ e.attributes.keys, a ∉ t.attributes.keys) :
    (t.normalized e).attributes.values =
      t.attributes.values ++ e.attributes.values.map fun d => t.complete d.config := by
  have hinjected : (t.injected e).entries = t.attributes.entries := by
    refine List.filter_eq_self.2 fun a ha => ?_
    have hdeclares : e.declares a.1 = false := by
      refine Bool.eq_false_iff.2 fun he => ?_
      exact h _ (e.attributes.contains_eq_true.1 he) (List.mem_map_of_mem ha)
    exact congrArg (! ·) hdeclares
  rw [← e.attributes.values_mapValues]
  exact (List.map_append ..).trans (congrArg (List.map Prod.snd · ++ _) hinjected)

end ValidationTables

/-! ## Valid parses -/

/-- A model whose attributes have whole numbers. -/
def Model.Integral (m : Model) : Prop :=
  ∀ e ∈ m.entities.values, ∀ d ∈ e.attributes.values, d.config.Integral

section
variable {t : ValidationTables} {m : Model}

/-- After a valid parse, nothing is wrong with the model. -/
theorem Model.Named.not_defect (h : m.Named) (hvalid : (m.validated t).isValid = true)
    (row : ErrorRow) : ¬ Defect t m row := fun hdefect =>
  (m.wellFiled_validated t).isEmpty_iff.1 hvalid row (h.mem_rows_validated.2 hdefect)

variable (hdefect : ∀ row, ¬ Defect t m row) {n : String} {e : Entity} (he : m.find? n = some e)
include hdefect he

/-- A type that nothing is wrong with is a text. -/
theorem exists_text_of_not_defect {a : String} {d : AttributeDecl}
    (hd : e.attributes.find? a = some d) {v : Value} (hv : d.config.type = some v) :
    ∃ s, v = .text s := by
  by_contra hnone
  exact hdefect _ (.attributeType he hd hv fun s _ heq => hnone ⟨s, heq⟩)

/-- The annotations of a reference that nothing is wrong with are read back. -/
theorem readsBack_annotation_of_not_defect {k : Nat} {r : NormalizedReference}
    (hr : r ∈ (t.normalized e).references.values) {a : Annotation}
    (ha : a ∈ r.annotations.values) :
    ReadsBack Annotation.ofDocument? Annotation.toDocument (k + 1) a := by
  obtain ⟨x, hx⟩ := (OrderedMap.mem_values _).1 hr
  obtain ⟨d, hd, hcomplete⟩ := (OrderedMap.find?_filterMapValues _).1 hx
  obtain ⟨-, -, hannotations⟩ := ReferenceConfig.of_complete? hcomplete
  obtain ⟨ns, hns⟩ := (OrderedMap.mem_values _).1 (hannotations ▸ ha)
  refine Annotation.readsBack_of_parsed (fun msg htype => ?_) fun msg hbound => ?_
  · exact hdefect _ (.referenceType he hd hns htype)
  · exact hdefect _ (.upperBound he hd hns hbound)

/-- The attributes of an entity that nothing is wrong with are those of the table and its own. -/
theorem attributes_of_not_defect :
    (t.normalized e).attributes.values =
      t.attributes.values ++ e.attributes.values.map fun d => t.complete d.config :=
  ValidationTables.values_attributes_normalized fun _ ha hat => hdefect _ (.collision he ha hat)

end

section
variable {t : ValidationTables} {m : Model} (hdefect : ∀ row, ¬ Defect t m row)
include hdefect

/-- The normalized model is legible if the attributes of the table are and those of its entities,
with their defaults. -/
theorem legible_normalizedModel_iff :
    (t.normalizedModel m).Legible ↔ ∀ e ∈ m.entities.values,
      (∀ c ∈ t.attributes.values, c.Legible attributeDepth) ∧
        ∀ d ∈ e.attributes.values, (t.complete d.config).Legible attributeDepth := by
  rw [NormalizedModel.Legible, ValidationTables.normalizedModel, OrderedMap.values_mapValues,
    List.forall_mem_map]
  refine forall₂_congr fun e he => ?_
  obtain ⟨n, hn⟩ := m.entities.mem_values.1 he
  rw [attributes_of_not_defect hdefect hn, List.forall_mem_append, List.forall_mem_map]

/-- With whole numbers, the normalized model is read back if it is legible. -/
theorem read?_toJson_normalizedModel (ht : t.Integral) (hm : m.Integral)
    (h : (t.normalizedModel m).Legible) :
    NormalizedModel.read? (t.normalizedModel m).toJson = some (t.normalizedModel m) := by
  have hentity : ∀ ne ∈ (t.normalizedModel m).entities.values,
      ∃ n e, m.find? n = some e ∧ t.normalized e = ne := by
    rw [ValidationTables.normalizedModel, OrderedMap.values_mapValues, List.forall_mem_map]
    intro e he
    obtain ⟨n, hn⟩ := m.entities.mem_values.1 he
    exact ⟨n, e, hn, rfl⟩
  refine h.read_back (fun ne hne c hc => ?_) fun ne hne r hr a ha => ?_
  · obtain ⟨n, e, he, rfl⟩ := hentity ne hne
    rw [attributes_of_not_defect hdefect he] at hc
    rcases List.mem_append.1 hc with hc | hc
    · exact ht.attributes c hc
    · obtain ⟨d, hd, rfl⟩ := List.mem_map.1 hc
      exact ht.complete (hm e (m.entities.mem_values.2 ⟨n, he⟩) d hd)
  · obtain ⟨n, e, he, rfl⟩ := hentity ne hne
    exact readsBack_annotation_of_not_defect hdefect he hr ha

end

/-! ## Models that were read -/

/-- What is read as an attribute in the full form is legible. -/
theorem AttributeDecl.legible_of_ofDocument? {n : Nat} {d : Document} {c : AttributeConfig}
    (hd : d.Parsed (n + 1)) (h : ofDocument? d = some (.full c)) : c.Legible n := by
  obtain ⟨v, -, hv⟩ := Option.map_eq_some_iff.1 h
  cases hc : AttributeConfig.ofDocument? d with
  | some c' =>
    obtain rfl : c' = c := by simpa [hc] using hv
    exact AttributeConfig.legible_of_ofDocument? hd hc
  | none => simp [hc] at hv

/-- The attributes of what is read as an entity are legible where they have the full form. -/
theorem Entity.legible_of_ofDocument? {n : Nat} {d : Document} {e : Entity}
    (hd : d.Parsed (n + 3)) (h : ofDocument? d = some e) {c : AttributeConfig}
    (hc : .full c ∈ e.attributes.values) : c.Legible n := by
  obtain ⟨-, -, hattributes, -⟩ := ofDocument?_eq_some.1 h
  obtain ⟨a, ha, hac⟩ := List.mem_map.1 hc
  cases hfield : d.field? fields "attributes" with
  | none =>
    rw [hfield] at hattributes
    obtain heq : .empty = e.attributes := Option.some.inj hattributes
    rw [← heq] at ha
    cases ha
  | some table =>
    rw [hfield] at hattributes
    obtain ⟨d', hd', hread⟩ := Document.exists_of_mem_asMapOf? hattributes ha
    have hparsed := (hd.of_holds (Document.holds_of_field? hfield)).of_holds hd'
    exact AttributeDecl.legible_of_ofDocument? hparsed (hac ▸ hread)

/-- The attributes of what is read as a model are legible where they have the full form. -/
theorem Model.legible_of_read? {s : String} {m : Model} (h : read? s = some m) {e : Entity}
    (he : e ∈ m.entities.values) {c : AttributeConfig} (hc : .full c ∈ e.attributes.values) :
    c.Legible attributeDepth := by
  obtain ⟨d, hs, hd⟩ := Option.bind_eq_some_iff.1 h
  obtain ⟨es, hes, rfl⟩ := Option.map_eq_some_iff.1 hd
  obtain ⟨entry, hentry, rfl⟩ := List.mem_map.1 he
  obtain ⟨d', hd', hread⟩ := Document.exists_of_mem_asMapOf? hes hentry
  have hparsed : d.Parsed (attributeDepth + 4) := Json.parsed_of_read? hs
  exact Entity.legible_of_ofDocument? (hparsed.of_holds hd') hread hc

/-- The attributes of a model that was read, and that nothing is wrong with, are legible. -/
theorem legible_config_of_not_defect {t : ValidationTables} {m : Model}
    (hdefect : ∀ row, ¬ Defect t m row) {s : String} (hs : Model.read? s = some m) {e : Entity}
    (he : e ∈ m.entities.values) {d : AttributeDecl} (hd : d ∈ e.attributes.values) :
    d.config.Legible attributeDepth := by
  cases d with
  | full c => exact Model.legible_of_read? hs he hd
  | shorthand v =>
    obtain ⟨n, hn⟩ := m.entities.mem_values.1 he
    obtain ⟨a, ha⟩ := e.attributes.mem_values.1 hd
    obtain ⟨x, rfl⟩ := exists_text_of_not_defect hdefect hn ha rfl
    refine ⟨nofun, nofun, fun w hw => ?_⟩
    obtain rfl : w = .text x := List.mem_singleton.1 hw
    exact .text x

/-! ## Main statement -/

/-- After a valid parse of a model, all with whole numbers, the normalized model is read back from
its JSON exactly if its attributes are legible: those of the table, and those of its entities with
their defaults. It always is if the tables are legible and the model was read from JSON. -/
theorem valid_read_back_iff (t : ValidationTables) (m : Model) (ht : t.Integral)
    (hm : m.Integral) (v : Validator) (hparse : m.parseWith (Validator.ofTables t) = (v, none))
    (hvalid : v.isValid = true) :
    (NormalizedModel.read? v.model.toJson = some v.model ↔
      ∀ e ∈ m.entities.values, (∀ c ∈ t.attributes.values, c.Legible attributeDepth) ∧
        ∀ d ∈ e.attributes.values, (t.complete d.config).Legible attributeDepth) ∧
    (t.Legible → ∀ s, Model.read? s = some m →
      NormalizedModel.read? v.model.toJson = some v.model) := by
  obtain ⟨hnamed, rfl⟩ := Model.of_parseWith Validator.handle_eq_ok hparse
  rw [Model.foldl_events] at hvalid ⊢
  have hdefect : ∀ row, ¬ Defect t m row := hnamed.not_defect hvalid
  rw [Model.model_validated, ← legible_normalizedModel_iff hdefect]
  have hread := read?_toJson_normalizedModel hdefect ht hm
  refine ⟨⟨NormalizedModel.legible_of_read?, hread⟩, fun hlegible s hs => hread ?_⟩
  refine (legible_normalizedModel_iff hdefect).2 fun e he => ⟨hlegible.attributes, fun d hd => ?_⟩
  exact hlegible.complete (legible_config_of_not_defect hdefect hs he hd)

/-- A model that was read from JSON, and is read back under the built-in tables. -/
theorem valid_read_back_of_pet :
    let id := (AttributeConfig.ofType (.text "number")).withFlag inKeyHashFlag (.bool true)
    let owner : ReferenceConfig :=
      ⟨some (.text "Pet"), none, .ofList [("graphql", .ofParts (some 2) (some .list))]⟩
    let pet := (Entity.empty.withAttribute "id" (.full id)).withReference "owner" (.full owner)
    let m := Model.empty.insert "Pet" pet
    let v := m.validated .builtIn
    (ValidationTables.builtIn.Integral ∧ ValidationTables.builtIn.Legible ∧ m.Integral ∧
      m.parseWith (Validator.ofTables .builtIn) = (v, none) ∧ v.isValid = true ∧
      Model.read? m.toJson = some m) ∧
    NormalizedModel.read? v.model.toJson = some v.model := by
  intro id owner pet m v
  have hm : m.Integral := by
    have hentities : m.entities.values = [pet] := rfl
    have hattributes : pet.attributes.values = [.full id] := rfl
    have hvalues : (AttributeDecl.full id).config.values = [.text "number", .bool true] := rfl
    simp [Model.Integral, AttributeConfig.Integral, hentities, hattributes, hvalues,
      Value.Integral.text, Value.Integral.bool]
  have hparse : m.parseWith (Validator.ofTables .builtIn) = (v, none) :=
    Model.Named.parseWith_validator _ (by decide)
  have hvalid : v.isValid = true := by decide
  have hs : Model.read? m.toJson = some m := by
    have hdocument : m.toDocument = .table [("Pet", .table [
        ("attributes", .table [("id", .table [("type", .text "number"),
          ("in_key_hash", .bool true)])]),
        ("references", .table [("owner", .table [("target", .text "Pet"),
          ("annotations", .table [("graphql", .table [("upper_bound", .nat 2),
            ("reference_type", .text "list")])])])])])] := by
      rfl
    have hplain : m.toDocument.Plain Json.greatestDepth := by
      have htwo : ∀ n, (Document.nat 2).Plain n := fun _ => Document.plain_nat (by decide)
      simp [hdocument, Json.greatestDepth, Document.plain_table, Document.Plain.text,
        Document.Plain.bool, htwo]
    rw [Model.read?, Model.toJson, Json.read?_compact hplain]
    rfl
  have h := valid_read_back_iff .builtIn m ValidationTables.builtIn_integral hm v hparse hvalid
  exact ⟨⟨ValidationTables.builtIn_integral, ValidationTables.builtIn_legible, hm, hparse, hvalid,
    hs⟩, h.2 ValidationTables.builtIn_legible _ hs⟩

/-- Two flags that the tables may have. One is named like a field: the attributes are written with
this name twice then, and are not read. The default of the other, which is 3e23, is read back as
another number of the floating-point format. -/
theorem valid_not_read_back_of_flags :
    let pet := Entity.empty.withAttribute "id"
      (.full (AttributeConfig.empty.withFlag inKeyHashFlag (.bool true)))
    let m := Model.empty.insert "Pet" pet
    let tables := fun (flag : String) (f : FlagDefault) =>
      (⟨ValidationTables.builtInTypes, .ofList [(flag, f)], .empty⟩ : ValidationTables)
    let field := tables "type" ⟨.string, .text "string", ""⟩
    let scale := tables "scale" ⟨.number, .number (.real ⟨false, 8940696716308594, 25⟩), ""⟩
    m.Integral ∧
    (∃ v, m.parseWith (Validator.ofTables field) = (v, none) ∧ v.isValid = true ∧
      NormalizedModel.read? v.model.toJson = none) ∧
    ∃ v, m.parseWith (Validator.ofTables scale) = (v, none) ∧ v.isValid = true ∧
      NormalizedModel.read? v.model.toJson ≠ some v.model := by
  intro pet m tables field scale
  have hm : m.Integral := by
    have hentities : m.entities.values = [pet] := rfl
    have hvalues : pet.attributes.values.flatMap (fun d => d.config.values) = [.bool true] := rfl
    intro e he d hd v hv
    obtain rfl : e = pet := List.mem_singleton.1 (hentities ▸ he)
    obtain rfl : v = .bool true := List.mem_singleton.1 (hvalues ▸ List.mem_flatMap.2 ⟨d, hd, hv⟩)
    exact .bool true
  have hparse : ∀ t, m.parseWith (Validator.ofTables t) = (m.validated t, none) := fun t =>
    Model.Named.parseWith_validator t (by decide)
  have hnone : NormalizedModel.read? (m.validated field).model.toJson = none := by
    have hdocument : (m.validated field).model.toDocument = .table [("Pet", .table [
        ("description", .text ""),
        ("attributes", .table [("id", .table [("type", .text "string"),
          ("in_key_hash", .bool true), ("type", .text "string")])]),
        ("references", .table [])])] := by
      rfl
    have hplain : (m.validated field).model.toDocument.Plain Json.greatestDepth := by
      simp [hdocument, Json.greatestDepth, Document.plain_table, Document.Plain.text,
        Document.Plain.bool]
    rw [NormalizedModel.read?, NormalizedModel.toJson, Json.read?_pretty hplain, hdocument]
    rfl
  have hother : NormalizedModel.read? (m.validated scale).model.toJson ≠
      some (m.validated scale).model := by
    decide +kernel
  exact ⟨hm, ⟨_, hparse field, by decide, hnone⟩, _, hparse scale, by decide, hother⟩

end EntityModel
