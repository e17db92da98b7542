import EntityModel.Document.Record
import EntityModel.Json.Printer
import EntityModel.Json.Reader

/-!
# Error records

Validation does not stop at a problem: it files a message under the entity, the category and the
item that it is about, and the record is looked at when all is done. A message stands at most once
under its item. `ErrorRecord.rows` is the flat view of a record, in the order of the nested maps.
-/

namespace EntityModel

/-- The part of an entity that an error is about. -/
inductive Category where
  | attributeItem
  | referenceItem
  | wholeObject
  deriving DecidableEq, Repr, Inhabited

namespace Category

/-- The name of a category. -/
def name : Category → String
  | .attributeItem => "attribute"
  | .referenceItem => "reference"
  | .wholeObject => "object"

/-- The category of a name. -/
def ofName? (s : String) : Option Category :=
  [attributeItem, referenceItem, wholeObject].find? fun c => c.name == s

end Category

/-- One message with all that it is filed under. -/
structure ErrorRow where
  entity : String
  category : Category
  item : String
  message : String
  deriving DecidableEq, Repr, Inhabited

/-- The messages about the items of one category. -/
abbrev ItemErrors := OrderedMap String (List String)

/-- The messages about one entity. -/
abbrev EntityErrors := OrderedMap Category ItemErrors

/-- The messages about all entities. -/
structure ErrorRecord where
  entries : OrderedMap String EntityErrors
  deriving DecidableEq, Inhabited

namespace ErrorRecord

/-- The entity that errors without an entity are filed under. -/
def unknownEntity : String := "__UNKNOWN_OBJECTS__"

/-- The item that errors about a whole entity are filed under. -/
def wholeEntity : String := "-"

/-- The record without messages. -/
def empty : ErrorRecord := ⟨.empty⟩

/-- The entity that an error is filed under. -/
def fileName : Option String → String
  | none => unknownEntity
  | some name => if name.isEmpty then unknownEntity else name

/-- The messages about an item. -/
def messages (r : ErrorRecord) (entity : String) (category : Category) (item : String) :
    List String :=
  (((r.entries.find? entity).bind fun e => e.find? category).bind fun is => is.find? item).getD []

/-- Whether a message is filed. -/
def contains (r : ErrorRecord) (row : ErrorRow) : Bool :=
  (r.messages row.entity row.category row.item).contains row.message

/-- Adds a message to a list that does not hold it. -/
def addMessage (message : String) (ms : List String) : List String :=
  if ms.contains message then ms else ms ++ [message]

/-- Files a message; one that is filed already changes nothing. -/
def add (r : ErrorRecord) (row : ErrorRow) : ErrorRecord :=
  ⟨r.entries.upsert row.entity fun e =>
    (e.getD .empty).upsert row.category fun is =>
      (is.getD .empty).upsert row.item fun ms => addMessage row.message (ms.getD [])⟩

/-- Files a message about an item of an entity, which may be missing. -/
def record (r : ErrorRecord) (entity : Option String) (category : Category)
    (item message : String) : ErrorRecord :=
  r.add ⟨fileName entity, category, item, message⟩

/-- Files a message about an attribute. -/
def recordAttribute (r : ErrorRecord) (entity item message : String) : ErrorRecord :=
  r.record (some entity) .attributeItem item message

/-- Files a message about a reference. -/
def recordReference (r : ErrorRecord) (entity item message : String) : ErrorRecord :=
  r.record (some entity) .referenceItem item message

/-- Files a message about an entity as a whole. -/
def recordObject (r : ErrorRecord) (entity message : String) : ErrorRecord :=
  r.record (some entity) .wholeObject wholeEntity message

/-- Files a message like `record`, and says whether it is new. -/
def file (r : ErrorRecord) (entity : Option String) (category : Category)
    (item message : String) : Bool × ErrorRecord :=
  (!r.contains ⟨fileName entity, category, item, message⟩, r.record entity category item message)

/-- Whether nothing is filed. -/
def isEmpty (r : ErrorRecord) : Bool := r.entries.isEmpty

/-- The rows about the items of one category. -/
def itemRows (entity : String) (category : Category) (is : ItemErrors) : List ErrorRow :=
  is.entries.flatMap fun i => i.2.map fun message => ⟨entity, category, i.1, message⟩

/-- The rows about one entity. -/
def entityRows (entity : String) (e : EntityErrors) : List ErrorRow :=
  e.entries.flatMap fun c => itemRows entity c.1 c.2

/-- All messages with what they are filed under. -/
def rows (r : ErrorRecord) : List ErrorRow := r.entries.entries.flatMap fun e => entityRows e.1 e.2

/-- The number of messages about the items of one category. -/
def itemSize (is : ItemErrors) : Nat := is.values.foldl (fun n ms => n + ms.length) 0

/-- The number of messages about one entity. -/
def entitySize (e : EntityErrors) : Nat := e.values.foldl (fun n is => n + itemSize is) 0

/-- The number of messages. -/
def size (r : ErrorRecord) : Nat := r.entries.values.foldl (fun n e => n + entitySize e) 0

/-- The number of messages about an entity in a category. -/
def count (r : ErrorRecord) (entity : String) (category : Category) : Nat :=
  match (r.entries.find? entity).bind fun e => e.find? category with
  | none => 0
  | some is => itemSize is

/-- The entities that messages are filed under. -/
def entities (r : ErrorRecord) : List String := r.entries.keys

/-- Files all messages of another record. -/
def extend (r other : ErrorRecord) : ErrorRecord :=
  other.rows.foldl (fun r row => r.record (some row.entity) row.category row.item row.message) r

/-- Whether two records hold the same messages about the same items, the order of the items, the
categories and the entities left aside. -/
def agrees (r s : ErrorRecord) : Bool :=
  r.entries.agrees (OrderedMap.agrees (OrderedMap.agrees fun a b => a == b)) s.entries

/-! ## Written forms -/

/-- The lines about one entity, each level indented by one tab more. -/
def entityLines (entity : String) (e : EntityErrors) : List String :=
  entity :: e.entries.flatMap fun c =>
    ("\t" ++ c.1.name) :: c.2.entries.flatMap fun i =>
      ("\t\t" ++ i.1) :: i.2.map fun message => "\t\t\t" ++ message

/-- The record as an indented tree. -/
def tree (r : ErrorRecord) : String :=
  String.join ((r.entries.entries.flatMap fun e => entityLines e.1 e.2).map (· ++ "\n"))

/-- The table a record is written as. -/
def toDocument (r : ErrorRecord) : Document :=
  r.entries.toDocument fun e =>
    .table (e.entries.map fun c => (c.1.name, c.2.toDocument Document.texts))

/-- The JSON of a record, one member a line. -/
def toJson (r : ErrorRecord) : String := Json.pretty r.toDocument

/-- Reads the messages about one entity. -/
def entityOfDocument? (d : Document) : Option EntityErrors :=
  match d with
  | .table members => do
    return OrderedMap.ofList (← members.mapM fun m => do
      return (← Category.ofName? m.1, ← m.2.asMapOf? (Document.asListOf? Document.asText?)))
  | _ => none

/-- Reads a record from a document. -/
def ofDocument? (d : Document) : Option ErrorRecord :=
  (d.asMapOf? entityOfDocument?).map ErrorRecord.mk

/-- Reads a record from JSON. -/
def read? (text : String) : Option ErrorRecord := (Json.read? text).bind ofDocument?

end ErrorRecord

end EntityModel
