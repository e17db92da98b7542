import EntityModel.Proofs.Text.Spelling
import EntityModel.Schema.RelayTemplate
import EntityModel.Template.Basic

/-!
# The nodes of the bundled template

The bundled template is read as `Relay.nodes`: four loops over the objects, the last of them with a
loop over fields and two conditions, and the texts between them.
-/

namespace EntityModel

namespace Schema.Relay

open Template
open Text (Spelled)

/-! ## Fixed parts -/

/-- The part in front of the imported names. -/
def opening : String :=
  "/**
 * Generated Relay schema. Changes are overwritten on the next run.
 */\nimport \x7b
  GraphQLBoolean,
  GraphQLInt,
  GraphQLList,
  GraphQLObjectType,
  GraphQLSchema,
  GraphQLString,
\x7d from 'graphql';\n\nimport \x7b
  connectionArgs,
  connectionDefinitions,
  connectionFromArray,
  fromGlobalId,
  globalIdField,
  nodeDefinitions,
\x7d from 'graphql-relay';\n\nimport \x7b\n"

/-- The part between the imported names and the cases that load an object. -/
def loading : String :=
  "\x7d from './database';

const \x7b nodeInterface, nodeField \x7d = nodeDefinitions(
  (globalId) => \x7b
    const \x7b type, id \x7d = fromGlobalId(globalId);\n"

/-- The part between the cases that load an object and those that tell its type. -/
def typing : String := "    return null;\n  \x7d,\n  (obj) => \x7b\n"

/-- The part between the cases that tell a type and the declarations. -/
def declaring : String := "    return null;\n  \x7d\n);\n"

/-- The part behind the declarations. -/
def ending : String :=
  "\nexport const schema = new GraphQLSchema(\x7b
  query: new GraphQLObjectType(\x7b
    name: 'Root',
    fields: () => (\x7b
      node: nodeField,
    \x7d),
  \x7d),
\x7d);"

/-- The arguments of a connection, and its resolver up to the name of the field. -/
def paging : String :=
  "',
      args: connectionArgs,
      resolve: (parent, args) => connectionFromArray(
        parent."

/-- The part of a declaration behind its fields. -/
def closing : String := "  \x7d),\n  interfaces: [nodeInterface],\n\x7d);\n"

/-! ## Nodes -/

/-- Puts out a member of the object at hand. -/
def ofObject (member : String) : Node := .output (.member (.name "object") member)

/-- Puts out a member of the field at hand. -/
def ofField (member : String) : Node := .output (.member (.name "field") member)

/-- Puts out the description of the object or field at hand, for a literal. -/
def description (owner : String) : Node :=
  .output (.filtered (.member (.name owner) "description") "js_string")

/-- The imported names of an object. -/
def importNodes : List Node :=
  [.text "  ", ofObject "class_name", .text ",\n  ", ofObject "getter_name", .text ",\n"]

/-- The case that loads an object. -/
def loadingNodes : List Node :=
  [.text "    if (type === '", ofObject "class_name", .text "') \x7b\n      return ",
    ofObject "getter_name", .text "(id);\n    \x7d\n"]

/-- The case that tells the type of an object. -/
def typingNodes : List Node :=
  [.text "    if (obj instanceof ", ofObject "class_name", .text ") \x7b\n      return ",
    ofObject "type_name", .text ";\n    \x7d\n"]

/-- The name of a field in camel case. -/
def fieldName : Node := .output (.filtered (.member (.name "field") "name") "camel_case")

/-- What the entry of every field starts with. -/
def fieldNodes : List Node :=
  [.text "    ", fieldName, .text ": \x7b\n      type: ", ofField "graphql_type",
    .text ",\n      description: '", description "field"]

/-- The rest of the entry of a paged field. -/
def pagedNodes : List Node :=
  [.text paging, ofField "name", .text ".map((id) => ", ofField "getter",
    .text "(id)),\n        args\n      ),\n    \x7d,\n"]

/-- The rest of the entry of any other field. -/
def plainNodes : List Node := [.text "',\n    \x7d,\n"]

/-- The entry of a field. -/
def fieldEntryNodes : List Node :=
  [.condition (.equal (.member (.name "field") "kind") (.literal (.text "connection")))
    (fieldNodes ++ pagedNodes) (fieldNodes ++ plainNodes)]

/-- The definition of the connection of an object. -/
def connectionNodes : List Node :=
  [.text "\nconst \x7b connectionType: ", ofObject "connection",
    .text " \x7d = connectionDefinitions(\x7b\n  name: '", ofObject "class_name",
    .text "',\n  nodeType: ", ofObject "type_name", .text ",\n\x7d);\n"]

/-- The declaration of the type of an object, up to its fields. -/
def headNodes : List Node :=
  [.text "\nconst ", ofObject "type_name", .text " = new GraphQLObjectType(\x7b\n  name: '",
    ofObject "class_name", .text "',\n  description: '", description "object",
    .text "',\n  fields: () => (\x7b\n    id: globalIdField('", ofObject "class_name",
    .text "', (obj) => obj.", .output (.name "id_field"), .text "),\n"]

/-- The declaration of the type of an object, and the definition of its connection. -/
def declarationNodes : List Node :=
  headNodes ++
  [.loop "field" (.member (.name "object") "fields") fieldEntryNodes [],
    .text closing, .condition (.member (.name "object") "connection") connectionNodes []]

/-- A loop over all objects. -/
def eachObject (body : List Node) : Node := .loop "object" (.name "objects") body []

/-- The nodes of the bundled template. -/
def nodes : List Node :=
  [.text opening, eachObject importNodes, .text loading, eachObject loadingNodes, .text typing,
    eachObject typingNodes, .text declaring, eachObject declarationNodes, .text ending]

/-! ## Reading -/

-- the recursion goes over every character of the template
set_option maxRecDepth 20000 in
/-- The bundled template is read as its nodes. -/
theorem read?_relayTemplate : Template.read? relayTemplate = some nodes := by
  obtain ⟨css, hspelled, hread⟩ : ∃ css, List.Forall₂ Spelled relayTemplateLines css ∧
      ((Segment.scan? (css.flatMap (· ++ ['\n']))).bind ofSegments?) = some nodes := by
    apply Exists.intro
    apply And.intro
    · dsimp only [relayTemplateLines]
      repeat' apply List.Forall₂.cons
      all_goals first
        | with_reducible exact Spelled.literal _
        | with_reducible exact Spelled.append (Spelled.literal _) (Spelled.literal _)
        | exact List.Forall₂.nil
    · rfl
  rw [Template.read?, relayTemplate, Spelled.lines hspelled]
  exact hread

end Schema.Relay

end EntityModel
