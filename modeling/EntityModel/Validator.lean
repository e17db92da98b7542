import EntityModel.Config.Basic
import EntityModel.Model.Normalized
import EntityModel.Order.Rounds
import EntityModel.Parse.Dispatch

/-!
# Validation

The validator judges every element that a parse announces, fills in defaults, and builds the
normalized model and the dependency graph from what is usable. What it finds wrong with an element
is a list of messages computed from the element and the tables alone
(`ValidationTables.attributeErrors`, `ReferenceConfig.errors`); the validator only files them.
Validation goes on after every problem.
-/

namespace EntityModel

/-! ## Judging single elements -/

namespace ValidationTables

/-- What is wrong with the type of an attribute: it is given and no registered text. -/
def typeErrors (t : ValidationTables) (c : AttributeConfig) : List String :=
  match c.type with
  | none => []
  | some (.text s) => if t.isType s then [] else ["The given type '" ++ s ++ "' is not valid"]
  | some v => ["The given type '" ++ v.describe ++ "' is not valid"]

/-- What is wrong with one flag of the table: it is given and of another kind. -/
def flagErrors (c : AttributeConfig) (flag : String) (d : FlagDefault) : List String :=
  match c.flag? flag with
  | none => []
  | some v =>
    if d.kind.admits v then []
    else ["The config element '" ++ flag ++ "' must be of type '" ++ d.kind.name ++ "'"]

/-- What is wrong with an attribute. -/
def attributeErrors (t : ValidationTables) (c : AttributeConfig) : List String :=
  t.typeErrors c ++ t.flags.entries.flatMap fun f => flagErrors c f.1 f.2

/-- Sets a flag that is not given. -/
def addFlag (flags : OrderedMap String Value) (flag : String) (v : Value) :
    OrderedMap String Value :=
  if flags.contains flag then flags else flags.insert flag v

/-- The attribute with its defaults: a missing type, and the missing flags of the table. -/
def complete (t : ValidationTables) (c : AttributeConfig) : AttributeConfig where
  type := some (c.type.getD (.text defaultAttributeType))
  description := c.description
  flags := t.flags.entries.foldl (fun flags f => addFlag flags f.1 f.2.value) c.flags

/-- The attributes that an entity gets: those of the table that it does not declare itself. -/
def injected (t : ValidationTables) (e : Entity) : OrderedMap String AttributeConfig :=
  t.attributes.filterKeys fun name => !e.declares name

/-- The attributes of the table that an entity declares itself. -/
def collisions (t : ValidationTables) (e : Entity) : List String :=
  t.attributes.keys.filter e.declares

/-- The message about an attribute that collides with one of the table. -/
def collisionError (name : String) : String :=
  "The object has an attribute '" ++ name ++ "' which collides with a default attribute"

end ValidationTables

namespace Annotation

/-- What is wrong with an annotation of a namespace. -/
def errors (ns : String) (a : Annotation) : List String :=
  (match a.parsedType with
    | .ok _ => []
    | .error v => ["The reference type '" ++ v ++ "' in annotation '" ++ ns ++
        "' is not valid, expected one of 'single', 'list', 'connection'"]) ++
  (match a.parsedUpperBound with
    | .ok _ => []
    | .error v => ["The upper bound '" ++ v ++ "' in annotation '" ++ ns ++
        "' must be of type 'number'"])

end Annotation

namespace ReferenceConfig

/-- The name of a target that can be used, or what is wrong with it. -/
def usableTarget (c : ReferenceConfig) : Except String String :=
  match c.target with
  | none | some .null => .error "No reference target defined"
  | some (.text s) => if s = "" then .error "No reference target defined" else .ok s
  | some v => .error ("The reference target '" ++ v.describe ++ "' is not valid")

/-- What is wrong with a reference. -/
def errors (c : ReferenceConfig) : List String :=
  (c.annotations.entries.flatMap fun a => a.2.errors a.1) ++
    match c.usableTarget with
    | .ok _ => []
    | .error message => [message]

/-- The reference with its defaults, if it has a usable target. -/
def complete? (c : ReferenceConfig) : Option NormalizedReference :=
  match c.usableTarget with
  | .ok target => some ⟨target, c.description.getD "", c.annotations⟩
  | .error _ => none

end ReferenceConfig

/-! ## The validator -/

/-- The state of validation: its tables, and what was built and found so far. -/
structure Validator where
  tables : ValidationTables
  model : NormalizedModel
  errors : ErrorRecord
  graph : DependencyGraph
  deriving DecidableEq, Inhabited

namespace Validator

/-- The validator before any parse. -/
def ofTables (tables : ValidationTables) : Validator := ⟨tables, .empty, .empty, .empty⟩

/-- The emission order of all entities seen so far. -/
def order (v : Validator) : Except CycleDetected (List String) := v.graph.order

/-- Files messages about an attribute. -/
def fileAttribute (v : Validator) (entity name : String) (messages : List String) : Validator :=
  { v with errors := messages.foldl (fun r m => r.recordAttribute entity name m) v.errors }

/-- Files messages about a reference. -/
def fileReference (v : Validator) (entity name : String) (messages : List String) : Validator :=
  { v with errors := messages.foldl (fun r m => r.recordReference entity name m) v.errors }

/-- Files a message about an entity as a whole. -/
def fileObject (v : Validator) (entity message : String) : Validator :=
  { v with errors := v.errors.recordObject entity message }

/-- Judges an attribute and fills in its defaults. -/
def normalizeAttribute (v : Validator) (entity name : String) (c : AttributeConfig) :
    AttributeConfig × Validator :=
  (v.tables.complete c, v.fileAttribute entity name (v.tables.attributeErrors c))

/-- Judges a reference and fills in its defaults; whether its target exists is not asked here. -/
def normalizeReference (v : Validator) (entity name : String) (c : ReferenceConfig) :
    Option NormalizedReference × Validator :=
  (c.complete?, v.fileReference entity name c.errors)

/-- The message about an entity whose elements come before it. -/
def notInitializedError : String :=
  "The object was not initialized before its elements were handled"

/-- Makes sure that an entity is there: one that was not announced is an error, and is added without
the attributes of the table. -/
def ensureEntity (v : Validator) (entity : String) : Validator :=
  if v.model.contains entity then v
  else
    let v := v.fileObject entity notInitializedError
    { v with
      model := ⟨v.model.entities.insert entity .empty⟩
      graph := v.graph.addNode entity }

/-- Adds an entity with the attributes of the table, in place of an earlier one of the name. -/
def addEntity (v : Validator) (name : String) (e : Entity) : Validator where
  tables := v.tables
  model := ⟨v.model.entities.insert name
    ⟨e.description.getD "", v.tables.injected e, .empty⟩⟩
  errors := (v.tables.collisions e).foldl
    (fun r a => r.recordAttribute name a (ValidationTables.collisionError a)) v.errors
  graph := v.graph.addNode name

/-- Changes an entity of the model. -/
def modifyEntity (v : Validator) (name : String) (f : NormalizedEntity → NormalizedEntity) :
    Validator :=
  { v with model := ⟨v.model.entities.modify name f⟩ }

/-- Adds an attribute with its defaults to an entity. -/
def addAttribute (v : Validator) (entity name : String) (c : AttributeConfig) : Validator :=
  let (complete, v) := v.normalizeAttribute entity name c
  (v.ensureEntity entity).modifyEntity entity fun e =>
    { e with attributes := e.attributes.insert name complete }

/-- Adds a reference to an entity, and the dependency it stands for, if it has a usable target. -/
def addReference (v : Validator) (entity name : String) (c : ReferenceConfig) : Validator :=
  match v.normalizeReference entity name c with
  | (none, v) => v
  | (some reference, v) =>
    let v := (v.ensureEntity entity).modifyEntity entity fun e =>
      { e with references := e.references.insert name reference }
    { v with graph := v.graph.addEdge entity reference.target }

/-- The message about an entity without a key. -/
def noKeyError : String := "The object has no attribute which has 'in_key_hash' set to 'true'"

/-- Checks that an entity has an attribute that takes part in the hash identifying it. -/
def checkEntity (v : Validator) (name : String) : Validator :=
  if (v.model.find? name).any NormalizedEntity.hasKey then v else v.fileObject name noKeyError

/-- Checks all entities of the model. -/
def checkEntities (v : Validator) : Validator := v.model.names.foldl checkEntity v

/-- What an event about a named element makes of the validator. -/
def accept (v : Validator) : Event → Validator
  | .declareEntity name e => v.addEntity name e
  | .declareAttribute entity name c => v.addAttribute entity name c
  | .declareReference entity name c => v.addReference entity name c
  | .finish => v.checkEntities

instance : Consumer Validator where
  name _ := "validator"
  handle v e :=
    match e.nameError? with
    | some f => .error f
    | none => .ok (v.accept e)
  errors := errors

/-- Whether nothing wrong was found. -/
def isValid (v : Validator) : Bool := v.errors.isEmpty

/-- Validates one entity alone; gives what it has become. -/
def normalizeEntity (v : Validator) (name : String) (e : Entity) :
    Except FatalError NormalizedEntity × Validator :=
  match feed (e.events name) v with
  | (v, some f) => (.error f, v)
  | (v, none) =>
    let v := v.checkEntity name
    (.ok ((v.model.find? name).getD .empty), v)

/-! ## Targets of references -/

/-- The message about a target that is no entity. -/
def unknownTargetError (target : String) : String :=
  "The reference target '" ++ target ++ "' is not a defined object"

/-- Whether a target is an entity of the model; if not, an error of the reference is filed. -/
def checkTarget (v : Validator) (entity name target : String) : Bool × Validator :=
  if v.model.contains target then (true, v)
  else (false, v.fileReference entity name [unknownTargetError target])

/-- The references of the model whose targets are no entities, by entity and name. -/
def unknownTargets (v : Validator) : List (String × String × String) :=
  (v.model.entities.entries.flatMap fun e =>
      e.2.references.entries.map fun r => (e.1, r.1, r.2.target)).filter
    fun r => !v.model.contains r.2.2

/-- Checks the targets of all references; gives the number of those that are no entities. -/
def checkTargets (v : Validator) : Nat × Validator :=
  (v.unknownTargets.length,
    v.unknownTargets.foldl (fun v r => v.fileReference r.1 r.2.1 [unknownTargetError r.2.2]) v)

/-- What an event makes of the validator of an output: the target of a reference has to be an
entity. The reference is given if it is there and its target is one. -/
def acceptChecked (v : Validator) (e : Event) : Option NormalizedReference × Validator :=
  let v := v.accept e
  match e with
  | .declareReference entity name _ =>
    match v.model.reference? entity name with
    | none => (none, v)
    | some r =>
      let (known, v) := v.checkTarget entity name r.target
      (if known then some r else none, v)
  | _ => (none, v)

end Validator

end EntityModel
