/-!
# The bundled template

The template of a Relay schema that is used where no other one is given, line by line.
-/

namespace EntityModel.Schema

/-- The lines of the bundled template. -/
def relayTemplateLines : List String :=
  ["/**",
   " * Generated Relay schema. Changes are overwritten on the next run.",
   " */",
   "import \x7b",
   "  GraphQLBoolean,",
   "  GraphQLInt,",
   "  GraphQLList,",
   "  GraphQLObjectType,",
   "  GraphQLSchema,",
   "  GraphQLString,",
   "\x7d from 'graphql';",
   "",
   "import \x7b",
   "  connectionArgs,",
   "  connectionDefinitions,",
   "  connectionFromArray,",
   "  fromGlobalId,",
   "  globalIdField,",
   "  nodeDefinitions,",
   "\x7d from 'graphql-relay';",
   "",
   "import \x7b",
   "\x7b% for object in objects %\x7d",
   "  \x7b\x7b object.class_name \x7d\x7d,",
   "  \x7b\x7b object.getter_name \x7d\x7d,",
   "\x7b% endfor %\x7d",
   "\x7d from './database';",
   "",
   "const \x7b nodeInterface, nodeField \x7d = nodeDefinitions(",
   "  (globalId) => \x7b",
   "    const \x7b type, id \x7d = fromGlobalId(globalId);",
   "\x7b% for object in objects %\x7d",
   "    if (type === '\x7b\x7b object.class_name \x7d\x7d') \x7b",
   "      return \x7b\x7b object.getter_name \x7d\x7d(id);",
   "    \x7d",
   "\x7b% endfor %\x7d",
   "    return null;",
   "  \x7d,",
   "  (obj) => \x7b",
   "\x7b% for object in objects %\x7d",
   "    if (obj instanceof \x7b\x7b object.class_name \x7d\x7d) \x7b",
   "      return \x7b\x7b object.type_name \x7d\x7d;",
   "    \x7d",
   "\x7b% endfor %\x7d",
   "    return null;",
   "  \x7d",
   ");",
   "\x7b% for object in objects %\x7d",
   "",
   "const \x7b\x7b object.type_name \x7d\x7d = new GraphQLObjectType(\x7b",
   "  name: '\x7b\x7b object.class_name \x7d\x7d',",
   "  description: '\x7b\x7b object.description | js_string \x7d\x7d',",
   "  fields: () => (\x7b",
   "    id: globalIdField('\x7b\x7b object.class_name \x7d\x7d', " ++
     "(obj) => obj.\x7b\x7b id_field \x7d\x7d),",
   "\x7b% for field in object.fields %\x7d",
   "\x7b% if field.kind == \"connection\" %\x7d",
   "    \x7b\x7b field.name | camel_case \x7d\x7d: \x7b",
   "      type: \x7b\x7b field.graphql_type \x7d\x7d,",
   "      description: '\x7b\x7b field.description | js_string \x7d\x7d',",
   "      args: connectionArgs,",
   "      resolve: (parent, args) => connectionFromArray(",
   "        parent.\x7b\x7b field.name \x7d\x7d.map((id) => \x7b\x7b field.getter \x7d\x7d(id)),",
   "        args",
   "      ),",
   "    \x7d,",
   "\x7b% else %\x7d",
   "    \x7b\x7b field.name | camel_case \x7d\x7d: \x7b",
   "      type: \x7b\x7b field.graphql_type \x7d\x7d,",
   "      description: '\x7b\x7b field.description | js_string \x7d\x7d',",
   "    \x7d,",
   "\x7b% endif %\x7d",
   "\x7b% endfor %\x7d",
   "  \x7d),",
   "  interfaces: [nodeInterface],",
   "\x7d);",
   "\x7b% if object.connection %\x7d",
   "",
   "const \x7b connectionType: \x7b\x7b object.connection \x7d\x7d \x7d = " ++
     "connectionDefinitions(\x7b",
   "  name: '\x7b\x7b object.class_name \x7d\x7d',",
   "  nodeType: \x7b\x7b object.type_name \x7d\x7d,",
   "\x7d);",
   "\x7b% endif %\x7d",
   "\x7b% endfor %\x7d",
   "",
   "export const schema = new GraphQLSchema(\x7b",
   "  query: new GraphQLObjectType(\x7b",
   "    name: 'Root',",
   "    fields: () => (\x7b",
   "      node: nodeField,",
   "    \x7d),",
   "  \x7d),",
   "\x7d);"]

/-- The bundled template. -/
def relayTemplate : String := String.join (relayTemplateLines.map (· ++ "\n"))

end EntityModel.Schema
