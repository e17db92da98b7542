import EntityModel.Schema.Object
import EntityModel.Validator

/-!
# Building a GraphQL schema

The builder is a consumer: it validates what it is announced and keeps one object for each entity. A
reference becomes a field once its target is known to be an entity, and a paged one gives the object
of its target a connection type.
-/

namespace EntityModel.Schema

/-- The state of building a schema. -/
structure Builder where
  validator : Validator
  template : String
  ns : String
  idField : String
  objects : OrderedMap String Object
  deriving DecidableEq, Inhabited

namespace Builder

/-- The name of the consumer. -/
def consumerName : String := "graphql"

/-- The builder before any parse; it needs a template. -/
def ofOptions (tables : ValidationTables) (options : SchemaOptions) : Except FatalError Builder :=
  match options.template with
  | none => .error (.missingOption consumerName "template")
  | some template =>
    .ok ⟨.ofTables tables, template, options.ns, options.idField, .empty⟩

/-- Changes the object of an entity, if there is one. -/
def modifyObject (b : Builder) (name : String) (f : Object → Object) : Builder :=
  { b with objects := b.objects.modify name f }

/-- Adds the object of an entity, in place of an earlier one of the name. -/
def addObject (b : Builder) (name : String) (e : Entity) : Builder :=
  { b with objects := b.objects.insert name (.ofEntity name (e.description.getD "")) }

/-- The name of the type of an attribute as it was normalized. -/
def typeOf (b : Builder) (entity name : String) (c : AttributeConfig) : String :=
  ((b.validator.model.attribute? entity name).getD c).typeName

/-- Adds the field of an attribute. -/
def addAttributeField (b : Builder) (entity name : String) (c : AttributeConfig) : Builder :=
  b.modifyObject entity fun o =>
    o.addField (.ofAttribute name (b.typeOf entity name c) (c.description.getD ""))

/-- Adds the field of a reference whose target is an entity. -/
def addReferenceField (b : Builder) (entity name : String) (r : NormalizedReference) : Builder :=
  let kind := r.cardinality b.ns
  let b :=
    if kind = .connection then b.modifyObject r.target fun o => o.connect r.target else b
  b.modifyObject entity fun o => o.addField (.ofReference name r.target r.description kind)

/-- What an event about a named element makes of the builder. -/
def accept (b : Builder) (e : Event) : Builder :=
  let (reference, validator) := b.validator.acceptChecked e
  let b := { b with validator }
  match e, reference with
  | .declareEntity name entity, _ => b.addObject name entity
  | .declareAttribute entity name c, _ => b.addAttributeField entity name c
  | .declareReference entity name _, some r => b.addReferenceField entity name r
  | _, _ => b

instance : Consumer Builder where
  name _ := consumerName
  handle b e :=
    match e.nameError? with
    | some f => .error f
    | none => .ok (b.accept e)
  errors b := b.validator.errors

/-- The objects as JSON, in the order of the model. -/
def toJson (b : Builder) : String := Json.pretty (b.objects.toDocument Object.toDocument)

end Builder

end EntityModel.Schema
