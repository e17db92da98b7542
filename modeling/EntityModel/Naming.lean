import EntityModel.Text.Words

/-!
# Names in generated code

The identifiers of an entity in the generated schema are made of the words of its name. A text
inside a quoted literal of the schema is escaped so that it neither ends the literal nor its line.
-/

namespace EntityModel

/-- The words of a name joined, each capitalized. -/
def pascalCase (s : String) : String := String.ofList (Text.pascalCase s.toList)

/-- The words of a name joined, each but the first capitalized. -/
def camelCase (s : String) : String := String.ofList (Text.camelCase s.toList)

namespace Naming

/-- The name of the class of an entity. -/
def className (entity : String) : String := pascalCase entity

/-- The name of the object type of an entity. -/
def typeName (entity : String) : String := camelCase (entity ++ " type")

/-- The name of the function that loads an entity. -/
def getterName (entity : String) : String := camelCase ("get " ++ entity)

/-- The name of the type of connections to an entity. -/
def connectionName (entity : String) : String := pascalCase (entity ++ " connection")

/-- A character inside a literal in single quotation marks. -/
def escapeChar (c : Char) : List Char :=
  if c = '\\' then ['\\', '\\']
  else if c = '\x27' then ['\\', '\x27']
  else if c = '\n' then ['\\', 'n']
  else if c = '\r' then ['\\', 'r']
  else if c = '\u2028' then ['\\', 'u', '2', '0', '2', '8']
  else if c = '\u2029' then ['\\', 'u', '2', '0', '2', '9']
  else [c]

/-- The characters of a text inside a literal in single quotation marks. -/
def escapeChars (cs : List Char) : List Char := cs.flatMap escapeChar

/-- A text inside a literal in single quotation marks. -/
def escapeLiteral (s : String) : String := String.ofList (escapeChars s.toList)

end Naming

end EntityModel
