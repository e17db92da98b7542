import EntityModel.Model.Basic

/-!
# The events of a parse

A parse announces a model in passes: every entity, then every attribute of every entity, then every
reference of every entity, and then the end. `Model.events` is that sequence; attributes and
references come with their full configuration. An event about an element without a name is never
delivered: it is a fatal error.
-/

namespace EntityModel

/-- What a parse announces. -/
inductive Event where
  | declareEntity (name : String) (entity : Entity)
  | declareAttribute (entity name : String) (config : AttributeConfig)
  | declareReference (entity name : String) (config : ReferenceConfig)
  | finish
  deriving DecidableEq, Inhabited

/-- What stops a parse: something mandatory is missing. -/
inductive FatalError where
  | missingEntityName
  | missingAttributeName (entity : String)
  | missingReferenceName (entity : String)
  | missingOption (consumer option : String)
  deriving DecidableEq, Repr, Inhabited

/-- The message of a fatal error. -/
def FatalError.message : FatalError → String
  | .missingEntityName => "No entity name defined"
  | .missingAttributeName entity => "No attribute name defined for entity '" ++ entity ++ "'"
  | .missingReferenceName entity => "No reference name defined for entity '" ++ entity ++ "'"
  | .missingOption consumer option =>
    "Consumer '" ++ consumer ++ "' requires option '" ++ option ++ "'"

namespace Event

/-- The error of an event about an element without a name. -/
def nameError? : Event → Option FatalError
  | .declareEntity name _ => if name = "" then some .missingEntityName else none
  | .declareAttribute entity name _ =>
    if entity = "" then some .missingEntityName
    else if name = "" then some (.missingAttributeName entity)
    else none
  | .declareReference entity name _ =>
    if entity = "" then some .missingEntityName
    else if name = "" then some (.missingReferenceName entity)
    else none
  | .finish => none

end Event

namespace Entity

/-- The events about the attributes of an entity. -/
def attributeEvents (name : String) (e : Entity) : List Event :=
  e.attributes.entries.map fun a => .declareAttribute name a.1 a.2.config

/-- The events about the references of an entity. -/
def referenceEvents (name : String) (e : Entity) : List Event :=
  e.references.entries.map fun r => .declareReference name r.1 r.2.config

/-- The events about one entity alone. -/
def events (name : String) (e : Entity) : List Event :=
  .declareEntity name e :: (e.attributeEvents name ++ e.referenceEvents name)

end Entity

/-- The events about a model. -/
def Model.events (m : Model) : List Event :=
  (m.entities.entries.map fun e => .declareEntity e.1 e.2) ++
    (m.entities.entries.flatMap fun e => e.2.attributeEvents e.1) ++
    (m.entities.entries.flatMap fun e => e.2.referenceEvents e.1) ++
    [.finish]

end EntityModel
