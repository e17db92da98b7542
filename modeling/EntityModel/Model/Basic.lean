import EntityModel.Json.Reader
import EntityModel.Model.Reference

/-!
# Models

A model declares entities by name, and an entity its attributes and its references, in an order that
the output keeps. `Model.read?` reads a model from JSON and `Model.toDocument` writes it back.
-/

namespace EntityModel

/-- An entity as declared. -/
structure Entity where
  description : Option String
  attributes : OrderedMap String AttributeDecl
  references : OrderedMap String ReferenceDecl
  deriving DecidableEq, Inhabited

namespace Entity

/-- The entity without a description, attribute or reference. -/
def empty : Entity := ⟨none, .empty, .empty⟩

/-- The entity with a description. -/
def describedAs (e : Entity) (description : String) : Entity :=
  { e with description := some description }

/-- The entity with an attribute declared. -/
def withAttribute (e : Entity) (name : String) (a : AttributeDecl) : Entity :=
  { e with attributes := e.attributes.insert name a }

/-- The entity with a reference declared. -/
def withReference (e : Entity) (name : String) (r : ReferenceDecl) : Entity :=
  { e with references := e.references.insert name r }

/-- Whether an attribute of this name is declared. -/
def declares (e : Entity) (name : String) : Bool := e.attributes.contains name

/-- Reads an entity. -/
def ofDocument? (d : Document) : Option Entity := do
  let [description, attributes, references] ←
    d.fields? ["description", "attributes", "references"] false | none
  return {
    description := ← Document.freeText? description
    attributes :=
      ← Document.withDefault? .empty (Document.asMapOf? AttributeDecl.ofDocument?) attributes
    references :=
      ← Document.withDefault? .empty (Document.asMapOf? ReferenceDecl.ofDocument?) references }

/-- The table an entity is written as. -/
def toDocument (e : Entity) : Document :=
  .table (Document.optionalMember "description" Document.text e.description ++
    [("attributes", e.attributes.toDocument AttributeDecl.toDocument),
     ("references", e.references.toDocument ReferenceDecl.toDocument)])

end Entity

/-- The entities of a model by name. -/
structure Model where
  entities : OrderedMap String Entity
  deriving DecidableEq, Inhabited

namespace Model

/-- The model without entities. -/
def empty : Model := ⟨.empty⟩

/-- The model with an entity declared. -/
def insert (m : Model) (name : String) (e : Entity) : Model := ⟨m.entities.insert name e⟩

/-- The entity of a name. -/
def find? (m : Model) (name : String) : Option Entity := m.entities.find? name

/-- The names of the entities in declared order. -/
def names (m : Model) : List String := m.entities.keys

/-- The number of entities. -/
def size (m : Model) : Nat := m.entities.size

/-- The number of attributes declared by all entities. -/
def attributeCount (m : Model) : Nat :=
  m.entities.values.foldl (fun n e => n + e.attributes.size) 0

/-- The number of references declared by all entities. -/
def referenceCount (m : Model) : Nat :=
  m.entities.values.foldl (fun n e => n + e.references.size) 0

/-- Reads a model from a document. -/
def ofDocument? (d : Document) : Option Model := (d.asMapOf? Entity.ofDocument?).map Model.mk

/-- Reads a model from JSON. -/
def read? (text : String) : Option Model := (Json.read? text).bind ofDocument?

/-- The table a model is written as. -/
def toDocument (m : Model) : Document := m.entities.toDocument Entity.toDocument

/-- The compact JSON of a model. -/
def toJson (m : Model) : String := Json.compact m.toDocument

end Model

end EntityModel
