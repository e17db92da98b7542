import EntityModel.Document.Basic
import EntityModel.OrderedMap

/-!
# Reading records, tables and scalars from a document

A record is written as a table of its fields, each given at most once and others ignored, or as a
list of its fields in order, where fields at the end may be missing. `Document.fields?` gives what
is written for each field; the other functions read one field of a given kind. `none` means that the
document does not fit.
-/

namespace EntityModel

namespace Document

/-- What is written under a name in a table; the outer `none` is a repeated name. -/
def member? (members : List (String × Document)) (name : String) : Option (Option Document) :=
  match members.filter fun m => m.1 == name with
  | [] => some none
  | [m] => some (some m.2)
  | _ => none

/-- What a list holds at each of `n` places; `surplus` says whether it may be longer. -/
def places? (surplus : Bool) : Nat → List Document → Option (List (Option Document))
  | 0, [] => some []
  | 0, _ :: _ => if surplus then some [] else none
  | n + 1, [] => (places? surplus n []).map (none :: ·)
  | n + 1, d :: rest => (places? surplus n rest).map (some d :: ·)

/-- What is written for each of the named fields of a record. -/
def fields? (names : List String) (surplus : Bool) : Document → Option (List (Option Document))
  | .table members => names.mapM (member? members)
  | .list items => places? surplus names.length items
  | _ => none

/-- The text, if the document is one. -/
def asText? : Document → Option String
  | .text s => some s
  | _ => none

/-- The truth value, if the document is one. -/
def asBool? : Document → Option Bool
  | .bool b => some b
  | _ => none

/-- The natural number below a bound, if the document is one. -/
def asNatBelow? (bound : Nat) : Document → Option Nat
  | .number n => n.toNatBelow? bound
  | _ => none

/-- The list of documents, each read in the same way. -/
def asListOf? {α : Type} (read : Document → Option α) : Document → Option (List α)
  | .list items => items.mapM read
  | _ => none

/-- The map of a table whose values are read in the same way; of a repeated name the first place and
the last value count, and every value has to fit. -/
def asMapOf? {α : Type} (read : Document → Option α) : Document → Option (OrderedMap String α)
  | .table members => do
    return OrderedMap.ofList (← members.mapM fun m => do return (m.1, ← read m.2))
  | _ => none

/-- A field that may be missing: its default stands in for it. -/
def withDefault? {α : Type} (default : α) (read : Document → Option α) :
    Option Document → Option α
  | none => some default
  | some d => read d

/-- A field that must be there. -/
def required? {α : Type} (read : Document → Option α) (d : Option Document) : Option α :=
  d.bind read

/-- A field that may be missing or null, which both mean that there is no value. -/
def optional? {α : Type} (read : Document → Option α) : Option Document → Option (Option α)
  | none | some .null => some none
  | some d => (read d).map some

end Document

namespace OrderedMap

/-- The table that a map is written as. -/
def toDocument {α : Type} (m : OrderedMap String α) (f : α → Document) : Document :=
  .table (m.entries.map fun e => (e.1, f e.2))

end OrderedMap

end EntityModel
