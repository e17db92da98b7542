import EntityModel.Model.Basic
import EntityModel.Validator

/-!
# Reports

A report tells how a check of a model went: what was counted, what was found wrong, and in which
order the entities can be emitted. It is written as JSON and can be read again.
-/

namespace EntityModel

/-- The version of the form of reports. -/
structure ReportVersion where
  major : Nat
  minor : Nat
  deriving DecidableEq, Repr, Inhabited

/-- The version of the reports written here. -/
def ReportVersion.current : ReportVersion := ⟨1, 0⟩

/-- The text of a version. -/
def ReportVersion.text (v : ReportVersion) : String := toString v.major ++ "." ++ toString v.minor

/-- What was counted. -/
structure ReportSummary where
  entities : Nat
  attributes : Nat
  references : Nat
  errors : Nat
  deriving DecidableEq, Repr, Inhabited

/-- Whether all entities could be ordered. -/
inductive OrderOutcome where
  | ordered (order : List String)
  | cyclic (c : CycleDetected)
  deriving DecidableEq, Repr, Inhabited

/-- The outcome of an ordering. -/
def OrderOutcome.ofOrder : Except CycleDetected (List String) → OrderOutcome
  | .ok order => .ordered order
  | .error c => .cyclic c

/-- How a check of a model went. -/
structure Report where
  version : ReportVersion
  timestamp : String
  valid : Bool
  summary : ReportSummary
  errors : ErrorRecord
  order : Option OrderOutcome
  deriving DecidableEq, Inhabited

namespace Report

/-- The report of a model with the errors found in it, made at the given time. -/
def ofModel (timestamp : String) (m : Model) (errors : ErrorRecord) : Report where
  version := .current
  timestamp
  valid := errors.isEmpty
  summary := ⟨m.size, m.attributeCount, m.referenceCount, errors.size⟩
  errors
  order := none

/-- The report with the outcome of the ordering. -/
def withOrder (r : Report) (o : OrderOutcome) : Report := { r with order := some o }

/-- Whether the model is valid and could be ordered. -/
def isSuccess (r : Report) : Bool :=
  r.valid && match r.order with
    | some (.cyclic _) => false
    | _ => true

/-- Checks a model: its elements, the targets of its references, and its order. -/
def check (timestamp : String) (tables : ValidationTables) (m : Model) :
    Except FatalError Report :=
  match m.parseWith (Validator.ofTables tables) with
  | (_, some f) => .error f
  | (v, none) =>
    let v := v.checkTargets.2
    .ok ((ofModel timestamp m v.errors).withOrder (.ofOrder v.order))

/-! ## Writing -/

/-- The table an outcome is written as. -/
def outcomeDocument : OrderOutcome → Document
  | .ordered order => .table [("status", .text "ordered"), ("order", .texts order)]
  | .cyclic c => .table [("status", .text "cyclic"), ("resolved", .texts c.resolved),
      ("unresolved", .texts c.unresolved)]

/-- The table a report is written as. -/
def toDocument (r : Report) : Document :=
  .table ([("version", .table [("major", .nat r.version.major), ("minor", .nat r.version.minor)]),
    ("timestamp", .text r.timestamp),
    ("valid", .bool r.valid),
    ("summary", .table [("entities", .nat r.summary.entities),
      ("attributes", .nat r.summary.attributes), ("references", .nat r.summary.references),
      ("errors", .nat r.summary.errors)]),
    ("errors", r.errors.toDocument)] ++
    Document.optionalMember "order" outcomeDocument r.order)

/-- The JSON of a report, one member a line. -/
def toJson (r : Report) : String := Json.pretty r.toDocument

/-! ## Reading -/

/-- Reads a version. -/
def versionOf? (d : Document) : Option ReportVersion := do
  let [major, minor] ← d.fields? ["major", "minor"] false | none
  return ⟨← Document.required? (Document.asNatBelow? UInt32.size) major,
    ← Document.required? (Document.asNatBelow? UInt32.size) minor⟩

/-- Reads what was counted. -/
def summaryOf? (d : Document) : Option ReportSummary := do
  let [entities, attributes, references, errors] ←
    d.fields? ["entities", "attributes", "references", "errors"] false | none
  let count := Document.required? (Document.asNatBelow? UInt64.size)
  return ⟨← count entities, ← count attributes, ← count references, ← count errors⟩

/-- Reads the names of a list. -/
def namesOf? : Option Document → Option (List String) :=
  Document.required? (Document.asListOf? Document.asText?)

/-- The status of an outcome and what belongs to it, in a table or behind it in a list. -/
def statusOf? : Document → Option (String × Document)
  | .table members => do
    let status ← (← Document.member? members "status").bind Document.asText?
    return (status, .table (members.filter fun m => m.1 != "status"))
  | .list (status :: rest) => status.asText?.map fun s => (s, .list rest)
  | _ => none

/-- Reads an outcome, all of which has to be readable. -/
def outcomeOf? (d : Document) : Option OrderOutcome := do
  let _ ← d.toValue?
  let (status, rest) ← statusOf? d
  match status with
  | "ordered" => do
    let [order] ← rest.fields? ["order"] false | none
    return .ordered (← namesOf? order)
  | "cyclic" => do
    let [resolved, unresolved] ← rest.fields? ["resolved", "unresolved"] false | none
    return .cyclic ⟨← namesOf? resolved, ← namesOf? unresolved⟩
  | _ => none

/-- Reads what is written for the outcome; in a list it has to be there. -/
def orderOf? (isList : Bool) : Option Document → Option (Option OrderOutcome)
  | none => if isList then none else some none
  | d => Document.optional? outcomeOf? d

/-- Reads a report from a document. -/
def ofDocument? (d : Document) : Option Report := do
  let [version, timestamp, valid, summary, errors, order] ←
    d.fields? ["version", "timestamp", "valid", "summary", "errors", "order"] false | none
  let isList := match d with
    | .list _ => true
    | _ => false
  return {
    version := ← Document.required? versionOf? version
    timestamp := ← Document.required? Document.asText? timestamp
    valid := ← Document.required? Document.asBool? valid
    summary := ← Document.required? summaryOf? summary
    errors := ← Document.required? ErrorRecord.ofDocument? errors
    order := ← orderOf? isList order }

/-- Reads a report from JSON. -/
def read? (text : String) : Option Report := (Json.read? text).bind ofDocument?

end Report

end EntityModel
