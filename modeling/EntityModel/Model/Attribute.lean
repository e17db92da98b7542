import EntityModel.Document.Record
import EntityModel.Json.Printer

/-!
# Attributes

An attribute is declared by its type alone or by a table of its type, its description and any flags.
`AttributeDecl.config` expands the first form to the second. Types and flags are loose values: what
does not fit is kept as it is and reported by validation.
-/

namespace EntityModel

/-- The type of an attribute that declares none. -/
def defaultAttributeType : String := "string"

/-- The flag of attributes that take part in the hash of an entity's content. -/
def inContentHashFlag : String := "in_content_hash"

/-- The flag of attributes that take part in the hash identifying an entity. -/
def inKeyHashFlag : String := "in_key_hash"

/-- The flag of attributes that may be missing. -/
def nullableFlag : String := "nullable"

/-- The full configuration of an attribute. -/
structure AttributeConfig where
  type : Option Value
  description : Option String
  flags : OrderedMap String Value
  deriving DecidableEq, Inhabited

namespace AttributeConfig

/-- No type, description or flag. -/
def empty : AttributeConfig := ⟨none, none, .empty⟩

/-- A type and nothing else. -/
def ofType (type : Value) : AttributeConfig := { empty with type := some type }

/-- The attribute with a description. -/
def describedAs (c : AttributeConfig) (description : String) : AttributeConfig :=
  { c with description := some description }

/-- The attribute with a flag set. -/
def withFlag (c : AttributeConfig) (flag : String) (v : Value) : AttributeConfig :=
  { c with flags := c.flags.insert flag v }

/-- The value of a flag. -/
def flag? (c : AttributeConfig) (flag : String) : Option Value := c.flags.find? flag

/-- The value of a flag, if it is a truth value. -/
def boolFlag? (c : AttributeConfig) (flag : String) : Option Bool :=
  (c.flag? flag).bind Value.asBool?

/-- Whether the attribute takes part in the hash identifying its entity. -/
def inKeyHash (c : AttributeConfig) : Bool := (c.boolFlag? inKeyHashFlag).getD false

/-- The name of the type: the default where there is no type, and empty where it is not a text. -/
def typeName (c : AttributeConfig) : String :=
  match c.type with
  | none => defaultAttributeType
  | some v => v.asText?.getD ""

end AttributeConfig

/-- An attribute as declared: its full configuration, or its type alone. -/
inductive AttributeDecl where
  | full (config : AttributeConfig)
  | shorthand (type : Value)
  deriving DecidableEq, Inhabited

namespace AttributeDecl

/-- The full configuration of a declared attribute. -/
def config : AttributeDecl → AttributeConfig
  | .full c => c
  | .shorthand type => .ofType type

/-- Whether the full form was used. -/
def isFull : AttributeDecl → Bool
  | .full _ => true
  | .shorthand _ => false

end AttributeDecl

/-! ## Reading and writing -/

namespace Document

/-- A free text: a text as it is, any other value as it is described, and null as no text. -/
def freeText? : Option Document → Option (Option String)
  | none => some none
  | some d => d.toValue?.map fun
    | .null => none
    | v => some v.describe

end Document

namespace AttributeConfig

/-- The names of the members that are not flags. -/
def fieldNames : List String := ["type", "description"]

/-- Reads the full form: a table whose further members are flags. -/
def ofDocument? : Document → Option AttributeConfig
  | .table members => do
    let type ← Document.optional? Document.toValue? (← Document.member? members "type")
    let description ← Document.freeText? (← Document.member? members "description")
    let others ← Document.toMembers? (members.filter fun m => !fieldNames.contains m.1)
    return ⟨type, description, .ofList others⟩
  | _ => none

/-- The members the full form is written as: first type and description, if there are any. -/
def members (c : AttributeConfig) : List (String × Document) :=
  Document.optionalMember "type" Value.toDocument c.type ++
    Document.optionalMember "description" Document.text c.description ++
    c.flags.entries.map fun f => (f.1, f.2.toDocument)

/-- The table the full form is written as. -/
def toDocument (c : AttributeConfig) : Document := .table c.members

end AttributeConfig

namespace AttributeDecl

/-- Reads an attribute: what does not fit the full form is the type alone. -/
def ofDocument? (d : Document) : Option AttributeDecl :=
  d.toValue?.map fun v =>
    match AttributeConfig.ofDocument? d with
    | some c => .full c
    | none => .shorthand v

/-- The document a declared attribute is written as. -/
def toDocument : AttributeDecl → Document
  | .full c => c.toDocument
  | .shorthand type => type.toDocument

end AttributeDecl

end EntityModel
