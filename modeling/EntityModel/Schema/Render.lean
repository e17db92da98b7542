import EntityModel.Schema.Builder
import EntityModel.Schema.RelayTemplate
import EntityModel.Template.Basic

/-!
# Rendering a GraphQL schema

A schema is rendered from the objects of a valid model in emission order, so that an object stands
behind those it refers to. A model that is not valid, or cannot be ordered, is not rendered.
-/

namespace EntityModel

namespace Template

/-- What a filter says about a value that is no text. -/
def textExpected (filter : String) : Error := .invalidOperation (filter ++ " expects a string")

/-- The filter that maps texts by a function. -/
def textFilter (filter : String) (f : String → String) : Filter
  | .text s => .ok (.text (f s))
  | _ => .error (textExpected filter)

/-- The filter that escapes a text for a quoted literal; an absent value is empty. -/
def literalFilter (filter : String) : Filter
  | .undefined | .none => .ok (.text "")
  | v => textFilter filter Naming.escapeLiteral v

/-- The filters of schema templates. -/
def schemaFilters : List (String × Filter) :=
  [("pascal_case", textFilter "pascal_case" pascalCase),
   ("camel_case", textFilter "camel_case" camelCase),
   ("js_string", literalFilter "js_string")]

end Template

namespace Schema

/-- Why a schema was not rendered. -/
inductive RenderError where
  | invalidModel (errors : Nat)
  | cycle (c : CycleDetected)
  | template (e : Template.Error)
  deriving DecidableEq, Repr

/-- The message about a model that is not valid. -/
def invalidModelMessage (errors : Nat) : String :=
  "The model is not valid (" ++ toString errors ++ " errors), nothing is generated"

/-- What a template can see of a field. -/
def Field.toValue (f : Field) : Template.Value :=
  .record ([("description", .text f.description)] ++
    (match f.getter with
      | some g => [("getter", Template.Value.text g)]
      | none => []) ++
    [("graphql_type", .text f.graphqlType), ("kind", .text f.kind.name), ("name", .text f.name)])

/-- What a template can see of an object. -/
def Object.toValue (o : Object) : Template.Value :=
  .record [("class_name", .text o.className), ("connection", .ofOption o.connection),
    ("description", .text o.description), ("fields", .list (o.fields.map Field.toValue)),
    ("getter_name", .text o.getterName), ("name", .text o.name), ("type_name", .text o.typeName)]

/-- What a template is rendered with: the attribute of the unique id, and objects. -/
def scope (idField : String) (objects : List Object) : List (String × Template.Value) :=
  [("id_field", .text idField), ("objects", .list (objects.map Object.toValue))]

namespace Builder

/-- The objects of a valid model in emission order. -/
def orderedObjects (b : Builder) : Except RenderError (List Object) :=
  if !b.validator.isValid then .error (.invalidModel b.validator.errors.size)
  else
    match b.validator.order with
    | .error c => .error (.cycle c)
    | .ok order => .ok (order.filterMap b.objects.find?)

/-- Renders a template. -/
def render (b : Builder) (source : String) : Except RenderError String :=
  match b.orderedObjects with
  | .error e => .error e
  | .ok objects =>
    match Template.render Template.schemaFilters source (scope b.idField objects) with
    | .error e => .error (.template e)
    | .ok text => .ok text

end Builder

end Schema

end EntityModel
