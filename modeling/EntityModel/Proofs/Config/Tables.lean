import EntityModel.Config.Basic
import EntityModel.Proofs.Model.NormalizedRoundTrip

/-!
# Validation tables

What is asked of validation tables by the proofs that something is read back. `Canonical` tables are
as reading makes them. Tables of whole numbers (`Integral`), whose flags can stand next to the
fields of an attribute (`Legible`), give attributes defaults that are read back with them. The
built-in tables are all of this, since there are only texts and truth values in them
(`ValidationTables.forall_builtIn`).
-/

namespace EntityModel

open NormalizedModel (attributeDepth)

/-- An attribute as reading makes it: no flag has the name of a field, and the members of its values
are sorted. -/
structure AttributeConfig.Canonical (c : AttributeConfig) : Prop where
  names : ∀ name ∈ c.flags.keys, name ∉ fieldNames
  values : ∀ v ∈ c.values, v.Canonical

namespace ValidationTables

/-- Tables as reading makes them. -/
structure Canonical (t : ValidationTables) : Prop where
  flags : ∀ f ∈ t.flags.values, f.value.Canonical
  attributes : ∀ c ∈ t.attributes.values, c.Canonical

/-- Tables of whole numbers. -/
structure Integral (t : ValidationTables) : Prop where
  flags : ∀ f ∈ t.flags.values, f.value.Integral
  attributes : ∀ c ∈ t.attributes.values, c.Integral

/-- Tables whose flags can stand next to the fields of an attribute, and whose attributes can be
read from what is written for them. -/
structure Legible (t : ValidationTables) : Prop where
  names : ∀ name ∈ t.flags.keys, name ∉ AttributeConfig.fieldNames
  nested : ∀ f ∈ t.flags.values, f.value.toDocument.Parsed attributeDepth
  attributes : ∀ c ∈ t.attributes.values, c.Legible attributeDepth

/-! ## The built-in tables -/

theorem type_systemAttribute (type : String) : (systemAttribute type).type = some (.text type) :=
  rfl

theorem values_systemAttribute (type : String) : (systemAttribute type).values =
    [.text type, .bool false, .bool false, .bool false] :=
  rfl

theorem values_builtIn_flags : builtIn.flags.values.map FlagDefault.value =
    [.bool true, .bool false, .bool true] :=
  rfl

theorem values_builtIn_attributes : builtIn.attributes.values =
    [systemAttribute "number", systemAttribute "string", systemAttribute "string"] :=
  rfl

/-- What holds of texts and truth values holds of the values in the built-in tables. -/
theorem forall_builtIn {P : Value → Prop} (htext : ∀ s, P (.text s)) (hbool : ∀ b, P (.bool b)) :
    (∀ f ∈ builtIn.flags.values, P f.value) ∧
      ∀ c ∈ builtIn.attributes.values, ∀ v ∈ c.values, P v := by
  have hflags : ∀ v ∈ builtIn.flags.values.map FlagDefault.value, P v := by
    rw [values_builtIn_flags]
    simp [hbool]
  refine ⟨fun f hf => hflags _ (List.mem_map_of_mem hf), ?_⟩
  rw [values_builtIn_attributes]
  simp [values_systemAttribute, htext, hbool]

/-- No flag of a built-in attribute has the name of a field. -/
theorem notMem_fieldNames_builtIn : ∀ c ∈ builtIn.attributes.values, ∀ name ∈ c.flags.keys,
    name ∉ AttributeConfig.fieldNames := by
  decide

theorem builtIn_canonical : builtIn.Canonical :=
  have ⟨hflags, hattributes⟩ := forall_builtIn Value.Canonical.text Value.Canonical.bool
  ⟨hflags, fun c hc => ⟨notMem_fieldNames_builtIn c hc, hattributes c hc⟩⟩

theorem builtIn_integral : builtIn.Integral :=
  have ⟨hflags, hattributes⟩ := forall_builtIn Value.Integral.text Value.Integral.bool
  ⟨hflags, hattributes⟩

theorem builtIn_legible : builtIn.Legible := by
  obtain ⟨hflags, hattributes⟩ := forall_builtIn
    (P := fun v => v.toDocument.Parsed attributeDepth) .text .bool
  have htype : ∀ c ∈ builtIn.attributes.values, c.type ≠ some .null := by
    rw [values_builtIn_attributes]
    simp [type_systemAttribute]
  exact ⟨by decide, hflags,
    fun c hc => ⟨notMem_fieldNames_builtIn c hc, htype c hc, hattributes c hc⟩⟩

end ValidationTables

end EntityModel
