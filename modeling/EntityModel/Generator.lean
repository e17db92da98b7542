import EntityModel.Json.Printer
import EntityModel.Validator

/-!
# The import file of the test data generator

Every entity becomes a vertex with the types of its declared attributes, and every reference to an
entity an edge, named by its entity and itself with a dot between them.
-/

namespace EntityModel.Generator

/-- The vertex of an entity: its description, and the type of each attribute. -/
structure Vertex where
  description : String
  attributes : OrderedMap String String
  deriving DecidableEq, Inhabited

/-- The edge of a reference; the bound limits the targets of one source. -/
structure Edge where
  source : String
  target : String
  description : String
  upperBound : Option Int
  deriving DecidableEq, Repr, Inhabited

/-- The state of building the file. -/
structure Builder where
  validator : Validator
  ns : String
  vertices : OrderedMap String Vertex
  edges : OrderedMap String Edge
  iterations : Nat
  deriving DecidableEq, Inhabited

/-- The name of the edge of a reference. -/
def edgeName (entity reference : String) : String := entity ++ "." ++ reference

namespace Builder

/-- The builder before any parse. -/
def ofOptions (tables : ValidationTables) (options : GeneratorOptions) : Builder :=
  ⟨.ofTables tables, options.ns, .empty, .empty, options.iterations⟩

/-- Adds the vertex of an entity, in place of an earlier one of the name. -/
def addVertex (b : Builder) (name : String) (e : Entity) : Builder :=
  { b with vertices := b.vertices.insert name ⟨e.description.getD "", .empty⟩ }

/-- Adds the type of an attribute, as it was normalized, to the vertex of its entity. -/
def addAttribute (b : Builder) (entity name : String) (c : AttributeConfig) : Builder :=
  let type := ((b.validator.model.attribute? entity name).getD c).typeName
  { b with vertices := b.vertices.modify entity fun v =>
      { v with attributes := v.attributes.insert name type } }

/-- Adds the edge of a reference whose target is an entity. -/
def addEdge (b : Builder) (entity name : String) (r : NormalizedReference) : Builder :=
  let edge : Edge := ⟨entity, r.target, r.description, r.upperBound? b.ns⟩
  { b with edges := b.edges.insert (edgeName entity name) edge }

/-- What an event about a named element makes of the builder. -/
def accept (b : Builder) (e : Event) : Builder :=
  let (reference, validator) := b.validator.acceptChecked e
  let b := { b with validator }
  match e, reference with
  | .declareEntity name entity, _ => b.addVertex name entity
  | .declareAttribute entity name c, _ => b.addAttribute entity name c
  | .declareReference entity name _, some r => b.addEdge entity name r
  | _, _ => b

instance : Consumer Builder where
  name _ := "tdg"
  handle b e :=
    match e.nameError? with
    | some f => .error f
    | none => .ok (b.accept e)
  errors b := b.validator.errors

end Builder

/-- The table a vertex is written as. -/
def Vertex.toDocument (v : Vertex) : Document :=
  .table [("description", .text v.description), ("attributes", v.attributes.toDocument .text)]

/-- The table an edge is written as. -/
def Edge.toDocument (e : Edge) : Document :=
  .table ([("source", .text e.source), ("target", .text e.target),
    ("description", .text e.description)] ++
    Document.optionalMember "upper_bound" (fun n => .number (.int n)) e.upperBound)

/-- The table of the file. -/
def Builder.toDocument (b : Builder) : Document :=
  .table [("vertices", b.vertices.toDocument Vertex.toDocument),
    ("edges", b.edges.toDocument Edge.toDocument),
    ("time_shift", .table [("iterations", .nat b.iterations)])]

/-- The text of the file. -/
def Builder.toJson (b : Builder) : String := Json.pretty b.toDocument

end EntityModel.Generator
