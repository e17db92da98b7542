import EntityModel.Model.Attribute

/-!
# References

A reference is declared by the name of its target alone or by a table of target, description and
annotations. An annotation belongs to a namespace, one for each output, and bounds and shapes the
reference there; `Annotation.cardinality` is what it amounts to.
-/

namespace EntityModel

/-- How a reference is represented in an output: one target, a list of them, or a paged list. -/
inductive Cardinality where
  | single
  | list
  | connection
  deriving DecidableEq, Repr, Inhabited

namespace Cardinality

/-- The name of a cardinality. -/
def name : Cardinality → String
  | .single => "single"
  | .list => "list"
  | .connection => "connection"

/-- The cardinality of a name. -/
def ofName? (s : String) : Option Cardinality :=
  [single, list, connection].find? fun c => c.name == s

end Cardinality

/-- What an annotation says about a reference in its namespace, loosely typed. -/
structure Annotation where
  upperBound : Option Value
  referenceType : Option Value
  deriving DecidableEq, Inhabited

namespace Annotation

/-- The annotation with the given bound and cardinality. -/
def ofParts (upperBound : Option Int) (type : Option Cardinality) : Annotation where
  upperBound := upperBound.map fun n => .number (.int n)
  referenceType := type.map fun c => .text c.name

/-- The cardinality named, if one is; an error holds the text of what is not a cardinality. -/
def parsedType (a : Annotation) : Except String (Option Cardinality) :=
  match a.referenceType with
  | none => .ok none
  | some v =>
    match v.asText?.bind Cardinality.ofName? with
    | some c => .ok (some c)
    | none => .error v.describe

/-- The bound, if there is one; an error holds the text of what is not a whole number of 64 bits. -/
def parsedUpperBound (a : Annotation) : Except String (Option Int) :=
  match a.upperBound with
  | none => .ok none
  | some v =>
    match v.asInt64? with
    | some n => .ok (some n)
    | none => .error v.describe

/-- The bound, if there is one that is a whole number. -/
def upperBound? (a : Annotation) : Option Int := a.parsedUpperBound.toOption.join

/-- The cardinality named, if it is one. -/
def type? (a : Annotation) : Option Cardinality := a.parsedType.toOption.join

/-- The cardinality: single if it is named so or at most one target is allowed, else a connection if
that is named, else a list. -/
def cardinality (a : Annotation) : Cardinality :=
  if a.upperBound? = some 1 ∨ a.type? = some .single then .single
  else if a.type? = some .connection then .connection
  else .list

/-- Reads an annotation. -/
def ofDocument? (d : Document) : Option Annotation := do
  let [bound, type] ← d.fields? ["upper_bound", "reference_type"] false | none
  return ⟨← Document.optional? Document.toValue? bound, ← Document.optional? Document.toValue? type⟩

/-- The table an annotation is written as. -/
def toDocument (a : Annotation) : Document :=
  .table (Document.optionalMember "upper_bound" Value.toDocument a.upperBound ++
    Document.optionalMember "reference_type" Value.toDocument a.referenceType)

end Annotation

/-- The full configuration of a reference. -/
structure ReferenceConfig where
  target : Option Value
  description : Option String
  annotations : OrderedMap String Annotation
  deriving DecidableEq, Inhabited

namespace ReferenceConfig

/-- No target, description or annotation. -/
def empty : ReferenceConfig := ⟨none, none, .empty⟩

/-- A target and nothing else. -/
def ofTarget (target : Value) : ReferenceConfig := { empty with target := some target }

/-- The reference with a description. -/
def describedAs (c : ReferenceConfig) (description : String) : ReferenceConfig :=
  { c with description := some description }

/-- The reference with an annotation in a namespace. -/
def withAnnotation (c : ReferenceConfig) (ns : String) (a : Annotation) : ReferenceConfig :=
  { c with annotations := c.annotations.insert ns a }

/-- The name of the target, if the target is a text. -/
def targetName? (c : ReferenceConfig) : Option String := c.target.bind Value.asText?

/-- Reads the full form. -/
def ofDocument? (d : Document) : Option ReferenceConfig := do
  let [target, description, annotations] ←
    d.fields? ["target", "description", "annotations"] false | none
  return {
    target := ← Document.optional? Document.toValue? target
    description := ← Document.freeText? description
    annotations :=
      ← Document.withDefault? .empty (Document.asMapOf? Annotation.ofDocument?) annotations }

/-- The table the full form is written as. -/
def toDocument (c : ReferenceConfig) : Document :=
  .table (Document.optionalMember "target" Value.toDocument c.target ++
    Document.optionalMember "description" Document.text c.description ++
    [("annotations", c.annotations.toDocument Annotation.toDocument)])

end ReferenceConfig

/-- A reference as declared: its full configuration, or its target alone. -/
inductive ReferenceDecl where
  | full (config : ReferenceConfig)
  | shorthand (target : Value)
  deriving DecidableEq, Inhabited

namespace ReferenceDecl

/-- The full configuration of a declared reference. -/
def config : ReferenceDecl → ReferenceConfig
  | .full c => c
  | .shorthand target => .ofTarget target

/-- Whether the full form was used. -/
def isFull : ReferenceDecl → Bool
  | .full _ => true
  | .shorthand _ => false

/-- Reads a reference: what does not fit the full form is the target alone. -/
def ofDocument? (d : Document) : Option ReferenceDecl :=
  d.toValue?.map fun v =>
    match ReferenceConfig.ofDocument? d with
    | some c => .full c
    | none => .shorthand v

/-- The document a declared reference is written as. -/
def toDocument : ReferenceDecl → Document
  | .full c => c.toDocument
  | .shorthand target => target.toDocument

end ReferenceDecl

end EntityModel
