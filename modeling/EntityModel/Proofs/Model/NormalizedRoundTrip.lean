import EntityModel.Model.Normalized
import EntityModel.Proofs.Model.RoundTrip

/-!
# Normalized models are read back

A normalized model is written with every field of its entities and references, so only its
attributes can keep it from being read: their flags stand next to the type and the description.
Whatever is read as a normalized model has legible attributes (`NormalizedModel.legible_of_read?`),
and a model of legible attributes is read back from its JSON, if its numbers are whole and its
annotations are read back (`NormalizedModel.Legible.read_back`).
-/

namespace EntityModel

open Document (ReadsBack)

/-! ## Whole numbers -/

/-- A value as reading makes it, of whole numbers. -/
structure Value.Integral (v : Value) : Prop where
  canonical : v.Canonical
  whole : v.toDocument.WholeNumbers

theorem Value.Integral.text (s : String) : (Value.text s).Integral :=
  ⟨.text s, (Document.Plain.text (n := 0) s).wholeNumbers⟩

theorem Value.Integral.bool (b : Bool) : (Value.bool b).Integral :=
  ⟨.bool b, (Document.Plain.bool (n := 0) b).wholeNumbers⟩

/-- A value of whole numbers is read back, if its brackets are not nested too deeply. -/
theorem Value.Integral.readsBack {n : Nat} {v : Value} (h : v.Integral)
    (hv : v.toDocument.Parsed n) : ReadsBack Document.toValue? toDocument n v :=
  have hread := h.canonical.toValue?_toDocument
  ⟨Document.plain_of_toValue? hread hv h.whole, hread⟩

/-- An attribute of whole numbers. -/
def AttributeConfig.Integral (c : AttributeConfig) : Prop := ∀ v ∈ c.values, v.Integral

/-- A legible attribute of whole numbers is read back. -/
theorem AttributeConfig.Legible.readsBack {n : Nat} {c : AttributeConfig} (h : c.Legible n)
    (hc : c.Integral) : ReadsBack ofDocument? toDocument (n + 1) c :=
  readsBack_of_values h fun v hv => (hc v hv).readsBack (h.nested v hv)

variable {n : Nat} {d : Document}

/-! ## References -/

namespace NormalizedReference

open ReferenceConfig (fields)

theorem ofDocument?_eq_some {r : NormalizedReference} :
    ofDocument? d = some r ↔ d.IsRecord fields ∧
      Document.required? Document.asText? (d.field? fields "target") = some r.target ∧
      Document.required? Document.asText? (d.field? fields "description") = some r.description ∧
      Document.required? (Document.asMapOf? Annotation.ofDocument?)
        (d.field? fields "annotations") = some r.annotations := by
  refine (Document.bind_fields?_eq_some (show fields.Nodup by decide)).trans
    (and_congr Document.isRecordIn_false ?_)
  simp only [fields, List.map_cons, List.map_nil, Option.bind_eq_bind, Option.bind_eq_some_iff,
    Option.pure_def, Option.some.injEq]
  constructor
  · rintro ⟨_, htarget, _, hdescription, _, hannotations, rfl⟩
    exact ⟨htarget, hdescription, hannotations⟩
  · rintro ⟨htarget, hdescription, hannotations⟩
    exact ⟨_, htarget, _, hdescription, _, hannotations, rfl⟩

/-- A reference is read back, if its annotations are. -/
theorem readsBack {r : NormalizedReference}
    (h : ∀ a ∈ r.annotations.entries,
      ReadsBack Annotation.ofDocument? Annotation.toDocument n a.2) :
    ReadsBack ofDocument? toDocument (n + 2) r := by
  have hannotations := ReadsBack.entries h
  have hrecord : r.toDocument.IsRecord fields :=
    Document.isRecord_of_nodup (show fields.Nodup by decide)
  refine ⟨.table ?_, ofDocument?_eq_some.2 ⟨hrecord, rfl, rfl, hannotations.read_write⟩⟩
  rw [List.forall_mem_cons, List.forall_mem_cons, List.forall_mem_singleton]
  exact ⟨.text _, .text _, hannotations.plain⟩

end NormalizedReference

/-! ## Entities -/

namespace NormalizedEntity

open Entity (fields)

theorem ofDocument?_eq_some {e : NormalizedEntity} :
    ofDocument? d = some e ↔ d.IsRecord fields ∧
      Document.required? Document.asText? (d.field? fields "description") = some e.description ∧
      Document.required? (Document.asMapOf? AttributeConfig.ofDocument?)
        (d.field? fields "attributes") = some e.attributes ∧
      Document.required? (Document.asMapOf? NormalizedReference.ofDocument?)
        (d.field? fields "references") = some e.references := by
  refine (Document.bind_fields?_eq_some (show fields.Nodup by decide)).trans
    (and_congr Document.isRecordIn_false ?_)
  simp only [fields, List.map_cons, List.map_nil, Option.bind_eq_bind, Option.bind_eq_some_iff,
    Option.pure_def, Option.some.injEq]
  constructor
  · rintro ⟨_, hdescription, _, hattributes, _, hreferences, rfl⟩
    exact ⟨hdescription, hattributes, hreferences⟩
  · rintro ⟨hdescription, hattributes, hreferences⟩
    exact ⟨_, hdescription, _, hattributes, _, hreferences, rfl⟩

/-- An entity is read back, if its attributes and references are. -/
theorem readsBack {e : NormalizedEntity}
    (hattributes : ∀ a ∈ e.attributes.entries,
      ReadsBack AttributeConfig.ofDocument? AttributeConfig.toDocument n a.2)
    (hreferences : ∀ r ∈ e.references.entries,
      ReadsBack NormalizedReference.ofDocument? NormalizedReference.toDocument n r.2) :
    ReadsBack ofDocument? toDocument (n + 2) e := by
  have hattributes := ReadsBack.entries hattributes
  have hreferences := ReadsBack.entries hreferences
  have hrecord : e.toDocument.IsRecord fields :=
    Document.isRecord_of_nodup (show fields.Nodup by decide)
  refine ⟨.table ?_, ofDocument?_eq_some.2
    ⟨hrecord, rfl, hattributes.read_write, hreferences.read_write⟩⟩
  rw [List.forall_mem_cons, List.forall_mem_cons, List.forall_mem_singleton]
  exact ⟨.text _, hattributes.plain, hreferences.plain⟩

/-- The attributes of what is read as an entity are legible. -/
theorem legible_of_ofDocument? {e : NormalizedEntity} (hd : d.Parsed (n + 3))
    (h : ofDocument? d = some e) : ∀ c ∈ e.attributes.values, c.Legible n := by
  intro c hc
  obtain ⟨-, -, hattributes, -⟩ := ofDocument?_eq_some.1 h
  obtain ⟨table, hfield, htable⟩ := Option.bind_eq_some_iff.1 hattributes
  obtain ⟨a, ha, rfl⟩ := List.mem_map.1 hc
  obtain ⟨d', hd', hread⟩ := Document.exists_of_mem_asMapOf? htable ha
  have hparsed := (hd.of_holds (Document.holds_of_field? hfield)).of_holds hd'
  exact AttributeConfig.legible_of_ofDocument? hparsed hread

end NormalizedEntity

/-! ## Models -/

namespace NormalizedModel

/-- How deeply brackets may be nested in a value of an attribute: four are around it, those of the
model, the entity, the attributes and the attribute. -/
def attributeDepth : Nat := Json.greatestDepth - 4

/-- The attributes of the model are legible. -/
def Legible (m : NormalizedModel) : Prop :=
  ∀ e ∈ m.entities.values, ∀ c ∈ e.attributes.values, c.Legible attributeDepth

/-- What is read as a normalized model has legible attributes. -/
theorem legible_of_read? {s : String} {m : NormalizedModel} (h : read? s = some m) :
    m.Legible := by
  intro e he
  obtain ⟨d, hs, hd⟩ := Option.bind_eq_some_iff.1 h
  obtain ⟨es, hes, rfl⟩ := Option.map_eq_some_iff.1 hd
  obtain ⟨entry, hentry, rfl⟩ := List.mem_map.1 he
  obtain ⟨d', hd', hread⟩ := Document.exists_of_mem_asMapOf? hes hentry
  have hparsed : d.Parsed (attributeDepth + 4) := Json.parsed_of_read? hs
  exact NormalizedEntity.legible_of_ofDocument? (hparsed.of_holds hd') hread

/-- A model of legible attributes is read back from its JSON, if its attributes have whole numbers
only and its annotations are read back. -/
theorem Legible.read_back {m : NormalizedModel} (h : m.Legible)
    (hattributes : ∀ e ∈ m.entities.values, ∀ c ∈ e.attributes.values, c.Integral)
    (hannotations : ∀ e ∈ m.entities.values, ∀ r ∈ e.references.values,
      ∀ a ∈ r.annotations.values,
        ReadsBack Annotation.ofDocument? Annotation.toDocument (attributeDepth - 1) a) :
    read? m.toJson = some m := by
  have hentities : ∀ e ∈ m.entities.entries,
      ReadsBack NormalizedEntity.ofDocument? NormalizedEntity.toDocument (attributeDepth + 3)
        e.2 := by
    intro e he
    have he := List.mem_map_of_mem (f := Prod.snd) he
    refine NormalizedEntity.readsBack (fun c hc => ?_) fun r hr => ?_
    · have hc := List.mem_map_of_mem (f := Prod.snd) hc
      exact (h _ he _ hc).readsBack (hattributes _ he _ hc)
    · have hr := List.mem_map_of_mem (f := Prod.snd) hr
      exact NormalizedReference.readsBack fun a ha =>
        hannotations _ he _ hr _ (List.mem_map_of_mem ha)
  have hmodel := ReadsBack.entries hentities
  have hplain : m.toDocument.Plain Json.greatestDepth := hmodel.plain
  have hread : ofDocument? m.toDocument = some m := congrArg (Option.map mk) hmodel.read_write
  rw [read?, toJson, Json.read?_pretty hplain, Option.bind_some, hread]

end NormalizedModel

end EntityModel
