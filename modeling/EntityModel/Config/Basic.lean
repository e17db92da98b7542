import EntityModel.Model.Attribute

/-!
# Configuration

The tables that drive validation, and the options of the two outputs. Each has a built-in default; a
table or an option that is given replaces the built-in one as a whole.
-/

namespace EntityModel

/-- The kind of value that a flag must have where it is given. -/
inductive FlagKind where
  | boolean
  | string
  | number
  deriving DecidableEq, Repr, Inhabited

namespace FlagKind

/-- The name of a kind. -/
def name : FlagKind → String
  | .boolean => "boolean"
  | .string => "string"
  | .number => "number"

/-- The kind of a name. -/
def ofName? (s : String) : Option FlagKind := [boolean, string, number].find? fun k => k.name == s

/-- Whether a value is of the kind. -/
def admits : FlagKind → Value → Bool
  | .boolean, .bool _ => true
  | .string, .text _ => true
  | .number, .number _ => true
  | _, _ => false

end FlagKind

/-- What is known about a flag: its kind, and its value where it is not given. -/
structure FlagDefault where
  kind : FlagKind
  value : Value
  description : String
  deriving DecidableEq, Inhabited

/-- The tables of attribute types, of flags, and of the attributes that every entity gets. -/
structure ValidationTables where
  types : OrderedMap String String
  flags : OrderedMap String FlagDefault
  attributes : OrderedMap String AttributeConfig
  deriving DecidableEq, Inhabited

namespace ValidationTables

/-- Whether an attribute type is registered. -/
def isType (t : ValidationTables) (name : String) : Bool := t.types.contains name

/-- The built-in attribute types with their descriptions. -/
def builtInTypes : OrderedMap String String :=
  .ofList [("string", "Just a string"),
    ("date", "A date time representation"),
    ("boolean", "A boolean value"),
    ("number", "Any valid number"),
    ("list", "A list of one of the above types or of an other object")]

/-- A flag that is true or false. -/
def booleanFlag (value : Bool) (description : String) : FlagDefault :=
  ⟨.boolean, .bool value, description⟩

/-- The built-in flags. -/
def builtInFlags : OrderedMap String FlagDefault :=
  .ofList [(inContentHashFlag,
      booleanFlag true "Defines that this attribute is part of the content hash"),
    (inKeyHashFlag,
      booleanFlag false
        "Defines that this attribute is part of the attributes identifying an object"),
    (nullableFlag, booleanFlag true "Defines if the value may be null or is mandatory")]

/-- An attribute that is mandatory and part of no hash. -/
def systemAttribute (type : String) : AttributeConfig :=
  (((AttributeConfig.ofType (.text type)).withFlag inContentHashFlag (.bool false)).withFlag
    inKeyHashFlag (.bool false)).withFlag nullableFlag (.bool false)

/-- The built-in attributes of every entity. -/
def builtInAttributes : OrderedMap String AttributeConfig :=
  .ofList [("__id_unique", systemAttribute "number"),
    ("__id_hash", systemAttribute "string"),
    ("__content_hash", systemAttribute "string")]

/-- The built-in tables. -/
def builtIn : ValidationTables := ⟨builtInTypes, builtInFlags, builtInAttributes⟩

end ValidationTables

/-- The options of the GraphQL schema: the template it is rendered with, the namespace of its
annotations, and the attribute that holds the unique id of a record. -/
structure SchemaOptions where
  template : Option String
  ns : String
  idField : String
  deriving DecidableEq, Inhabited

/-- The built-in options of the GraphQL schema. -/
def SchemaOptions.builtIn : SchemaOptions := ⟨none, "graphql", "__id_unique"⟩

/-- The options of the test data generator: the namespace of its annotations, and how often it
repeats the data. -/
structure GeneratorOptions where
  ns : String
  iterations : Nat
  deriving DecidableEq, Inhabited

/-- The built-in options of the test data generator. -/
def GeneratorOptions.builtIn : GeneratorOptions := ⟨"tdg", 1⟩

/-- A whole configuration. -/
structure Config where
  validation : ValidationTables
  graphql : SchemaOptions
  generator : GeneratorOptions
  deriving DecidableEq, Inhabited

namespace Config

/-- The configuration that holds where none is given. -/
def builtIn : Config := ⟨.builtIn, .builtIn, .builtIn⟩

/-- Whether two configurations say the same, the order of their tables left aside. -/
def agrees (c d : Config) : Bool :=
  c.validation.types.agrees (· == ·) d.validation.types &&
    c.validation.flags.agrees (· == ·) d.validation.flags &&
    c.validation.attributes.agrees
      (fun a b => a.type == b.type && a.description == b.description &&
        a.flags.agrees (· == ·) b.flags)
      d.validation.attributes &&
    c.graphql == d.graphql && c.generator == d.generator

end Config

end EntityModel
