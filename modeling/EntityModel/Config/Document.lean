import EntityModel.Config.Basic
import EntityModel.Json.Reader
import EntityModel.Toml.Printer
import EntityModel.Toml.Reader

/-!
# Configuration files

A configuration is read from TOML or from JSON and written as TOML. The two notations differ in two
points: only in JSON must a record that is written as a list have no surplus items, and a kind may
also be written as a table of one member, whose value is null in JSON and an empty table or list in
TOML.
-/

namespace EntityModel

/-- The notation that a configuration is written in. -/
inductive Notation where
  | json
  | toml
  deriving DecidableEq, Repr

namespace Notation

/-- Whether a record that is written as a list may have surplus items. -/
def allowsSurplus : Notation → Bool
  | .json => false
  | .toml => true

/-- Whether a document stands for the value of a kind that is written as a table. -/
def isUnit : Notation → Document → Bool
  | .json, .null => true
  | .toml, .table [] => true
  | .toml, .list [] => true
  | _, _ => false

end Notation

/-! ## Reading -/

/-- Reads the kind of a flag. -/
def FlagKind.ofDocument? (n : Notation) : Document → Option FlagKind
  | .text s => ofName? s
  | .table [(s, d)] => if n.isUnit d then ofName? s else none
  | _ => none

/-- Reads what is known about a flag. -/
def FlagDefault.ofDocument? (n : Notation) (d : Document) : Option FlagDefault := do
  let [kind, value, description] ←
    d.fields? ["kind", "value", "description"] n.allowsSurplus | none
  return {
    kind := ← Document.required? (FlagKind.ofDocument? n) kind
    value := ← Document.required? Document.toValue? value
    description := ← Document.withDefault? "" Document.asText? description }

/-- Reads the tables of validation. -/
def ValidationTables.ofDocument? (n : Notation) (d : Document) : Option ValidationTables := do
  let [types, flags, attributes] ←
    d.fields? ["types", "flags", "default_attributes"] n.allowsSurplus | none
  return {
    types := ← Document.withDefault? builtInTypes (Document.asMapOf? Document.asText?) types
    flags :=
      ← Document.withDefault? builtInFlags (Document.asMapOf? (FlagDefault.ofDocument? n)) flags
    attributes :=
      ← Document.withDefault? builtInAttributes (Document.asMapOf? AttributeConfig.ofDocument?)
        attributes }

/-- Reads the options of the GraphQL schema. -/
def SchemaOptions.ofDocument? (n : Notation) (d : Document) : Option SchemaOptions := do
  let [template, ns, idField] ←
    d.fields? ["template", "annotation", "id_field"] n.allowsSurplus | none
  return {
    template := ← Document.optional? Document.asText? template
    ns := ← Document.withDefault? builtIn.ns Document.asText? ns
    idField := ← Document.withDefault? builtIn.idField Document.asText? idField }

/-- The bound of the number of iterations. -/
def GeneratorOptions.iterationBound : Nat := UInt32.size

/-- Reads the options of the test data generator. -/
def GeneratorOptions.ofDocument? (n : Notation) (d : Document) : Option GeneratorOptions := do
  let [ns, iterations] ← d.fields? ["annotation", "iterations"] n.allowsSurplus | none
  return {
    ns := ← Document.withDefault? builtIn.ns Document.asText? ns
    iterations :=
      ← Document.withDefault? builtIn.iterations (Document.asNatBelow? iterationBound) iterations }

namespace Config

/-- Reads a configuration from a document. -/
def ofDocument? (n : Notation) (d : Document) : Option Config := do
  let [validation, graphql, generator] ←
    d.fields? ["validation", "graphql", "tdg"] n.allowsSurplus | none
  return {
    validation := ← Document.withDefault? .builtIn (ValidationTables.ofDocument? n) validation
    graphql := ← Document.withDefault? .builtIn (SchemaOptions.ofDocument? n) graphql
    generator := ← Document.withDefault? .builtIn (GeneratorOptions.ofDocument? n) generator }

/-- Reads a configuration from JSON. -/
def ofJson? (text : String) : Option Config := (Json.read? text).bind (ofDocument? .json)

/-- Reads a configuration from TOML. -/
def ofToml? (text : String) : Option Config := (Toml.read? text).bind (ofDocument? .toml)

end Config

/-! ## Writing -/

/-- The table that what is known about a flag is written as. -/
def FlagDefault.toDocument (f : FlagDefault) : Document :=
  .table [("kind", .text f.kind.name), ("value", f.value.toDocument),
    ("description", .text f.description)]

/-- The table that the tables of validation are written as. -/
def ValidationTables.toDocument (t : ValidationTables) : Document :=
  .table [("types", t.types.toDocument .text), ("flags", t.flags.toDocument FlagDefault.toDocument),
    ("default_attributes", t.attributes.toDocument AttributeConfig.toDocument)]

/-- The table that the options of the GraphQL schema are written as. -/
def SchemaOptions.toDocument (o : SchemaOptions) : Document :=
  .table (Document.optionalMember "template" .text o.template ++
    [("annotation", .text o.ns), ("id_field", .text o.idField)])

/-- The table that the options of the test data generator are written as. -/
def GeneratorOptions.toDocument (o : GeneratorOptions) : Document :=
  .table [("annotation", .text o.ns), ("iterations", .nat o.iterations)]

namespace Config

/-- The table that a configuration is written as. -/
def toDocument (c : Config) : Document :=
  .table [("validation", c.validation.toDocument), ("graphql", c.graphql.toDocument),
    ("tdg", c.generator.toDocument)]

/-- The compact JSON of a configuration. -/
def toJson (c : Config) : String := Json.compact c.toDocument

/-- The TOML of a configuration, if all of it can be written. -/
def toToml? (c : Config) : Option String := Toml.print? c.toDocument

end Config

end EntityModel
