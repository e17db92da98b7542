import EntityModel.Model.Basic

/-!
# Normalized models

A normalized model is what validation makes of a declared one: defaults are filled in, descriptions
are texts, and every reference has a target.
-/

namespace EntityModel

/-- A reference with a target. -/
structure NormalizedReference where
  target : String
  description : String
  annotations : OrderedMap String Annotation
  deriving DecidableEq, Inhabited

namespace NormalizedReference

/-- The cardinality in a namespace; a reference without an annotation there is single. -/
def cardinality (r : NormalizedReference) (ns : String) : Cardinality :=
  ((r.annotations.find? ns).map Annotation.cardinality).getD .single

/-- The bound in a namespace. -/
def upperBound? (r : NormalizedReference) (ns : String) : Option Int :=
  (r.annotations.find? ns).bind Annotation.upperBound?

/-- Reads a reference, of which every field has to be there. -/
def ofDocument? (d : Document) : Option NormalizedReference := do
  let [target, description, annotations] ←
    d.fields? ["target", "description", "annotations"] false | none
  return {
    target := ← Document.required? Document.asText? target
    description := ← Document.required? Document.asText? description
    annotations :=
      ← Document.required? (Document.asMapOf? Annotation.ofDocument?) annotations }

/-- The table a reference is written as. -/
def toDocument (r : NormalizedReference) : Document :=
  .table [("target", .text r.target), ("description", .text r.description),
    ("annotations", r.annotations.toDocument Annotation.toDocument)]

end NormalizedReference

/-- An entity with its defaults. -/
structure NormalizedEntity where
  description : String
  attributes : OrderedMap String AttributeConfig
  references : OrderedMap String NormalizedReference
  deriving DecidableEq, Inhabited

namespace NormalizedEntity

/-- The entity with an empty description, without attributes and references. -/
def empty : NormalizedEntity := ⟨"", .empty, .empty⟩

/-- Whether an attribute takes part in the hash identifying the entity. -/
def hasKey (e : NormalizedEntity) : Bool := e.attributes.values.any AttributeConfig.inKeyHash

/-- Reads an entity, of which every field has to be there. -/
def ofDocument? (d : Document) : Option NormalizedEntity := do
  let [description, attributes, references] ←
    d.fields? ["description", "attributes", "references"] false | none
  return {
    description := ← Document.required? Document.asText? description
    attributes :=
      ← Document.required? (Document.asMapOf? AttributeConfig.ofDocument?) attributes
    references :=
      ← Document.required? (Document.asMapOf? NormalizedReference.ofDocument?) references }

/-- The table an entity is written as. -/
def toDocument (e : NormalizedEntity) : Document :=
  .table [("description", .text e.description),
    ("attributes", e.attributes.toDocument AttributeConfig.toDocument),
    ("references", e.references.toDocument NormalizedReference.toDocument)]

end NormalizedEntity

/-- The normalized entities by name. -/
structure NormalizedModel where
  entities : OrderedMap String NormalizedEntity
  deriving DecidableEq, Inhabited

namespace NormalizedModel

/-- The model without entities. -/
def empty : NormalizedModel := ⟨.empty⟩

/-- The entity of a name. -/
def find? (m : NormalizedModel) (name : String) : Option NormalizedEntity := m.entities.find? name

/-- Whether there is an entity of this name. -/
def contains (m : NormalizedModel) (name : String) : Bool := m.entities.contains name

/-- The names of the entities in order. -/
def names (m : NormalizedModel) : List String := m.entities.keys

/-- An attribute of an entity. -/
def attribute? (m : NormalizedModel) (entity name : String) : Option AttributeConfig :=
  (m.find? entity).bind fun e => e.attributes.find? name

/-- A reference of an entity. -/
def reference? (m : NormalizedModel) (entity name : String) : Option NormalizedReference :=
  (m.find? entity).bind fun e => e.references.find? name

/-- Reads a model from a document. -/
def ofDocument? (d : Document) : Option NormalizedModel :=
  (d.asMapOf? NormalizedEntity.ofDocument?).map NormalizedModel.mk

/-- Reads a model from JSON. -/
def read? (text : String) : Option NormalizedModel := (Json.read? text).bind ofDocument?

/-- The table a model is written as. -/
def toDocument (m : NormalizedModel) : Document := m.entities.toDocument NormalizedEntity.toDocument

/-- The JSON of a model, one member a line. -/
def toJson (m : NormalizedModel) : String := Json.pretty m.toDocument

end NormalizedModel

end EntityModel
