import EntityModel.Json.Printer
import EntityModel.Model.Reference
import EntityModel.Naming

/-!
# Objects of a GraphQL schema

Every entity becomes an object with a field for each of its declared attributes and for each
reference to another object. An object that some reference pages through has a connection type.
-/

namespace EntityModel.Schema

/-- Where a field comes from: an attribute, or a reference of some cardinality. -/
inductive FieldKind where
  | plain
  | reference (c : Cardinality)
  deriving DecidableEq, Repr, Inhabited

/-- The name of a kind of field. -/
def FieldKind.name : FieldKind → String
  | .plain => "attribute"
  | .reference c => c.name

/-- A field of an object; the getter loads one target of a connection. -/
structure Field where
  name : String
  kind : FieldKind
  graphqlType : String
  description : String
  getter : Option String
  deriving DecidableEq, Repr, Inhabited

/-- The object of an entity. -/
structure Object where
  name : String
  className : String
  typeName : String
  getterName : String
  description : String
  fields : List Field
  connection : Option String
  deriving DecidableEq, Repr, Inhabited

/-- The GraphQL type of an attribute type. -/
def scalarType (type : String) : String :=
  if type = "number" ∨ type = "date" then "GraphQLInt"
  else if type = "boolean" then "GraphQLBoolean"
  else if type = "list" then "new GraphQLList(GraphQLString)"
  else "GraphQLString"

namespace Field

/-- The field of an attribute. -/
def ofAttribute (name type description : String) : Field :=
  ⟨name, .plain, scalarType type, description, none⟩

/-- The field of a reference to an entity. -/
def ofReference (name target description : String) : Cardinality → Field
  | .single => ⟨name, .reference .single, Naming.typeName target, description, none⟩
  | .list =>
    ⟨name, .reference .list, "new GraphQLList(" ++ Naming.typeName target ++ ")", description, none⟩
  | .connection =>
    ⟨name, .reference .connection, Naming.connectionName target, description,
      some (Naming.getterName target)⟩

/-- The table a field is written as. -/
def toDocument (f : Field) : Document :=
  .table ([("name", .text f.name), ("kind", .text f.kind.name),
    ("graphql_type", .text f.graphqlType), ("description", .text f.description)] ++
    Document.optionalMember "getter" .text f.getter)

end Field

namespace Object

/-- The object of an entity, without fields. -/
def ofEntity (name description : String) : Object :=
  ⟨name, Naming.className name, Naming.typeName name, Naming.getterName name, description, [], none⟩

/-- The first field of a name. -/
def field? (o : Object) (name : String) : Option Field := o.fields.find? fun f => f.name == name

/-- Adds a field behind the others. -/
def addField (o : Object) (f : Field) : Object := { o with fields := o.fields ++ [f] }

/-- Gives the object its connection type. -/
def connect (o : Object) (target : String) : Object :=
  { o with connection := some (Naming.connectionName target) }

/-- The table an object is written as. -/
def toDocument (o : Object) : Document :=
  .table [("name", .text o.name), ("class_name", .text o.className),
    ("type_name", .text o.typeName), ("getter_name", .text o.getterName),
    ("description", .text o.description), ("fields", .list (o.fields.map Field.toDocument)),
    ("connection", (o.connection.map Document.text).getD .null)]

end Object

end EntityModel.Schema
