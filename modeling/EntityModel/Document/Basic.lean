import EntityModel.Value

/-!
# Documents

A `Document` is the tree that a text of a data notation stands for, as it is written: the members of
a table keep their order and their repetitions. `Document.toValue?` forgets both, which gives the
loose value of the document, and `Value.toDocument` writes a loose value as a document again.

Two leaves belong to reading only. `notFinite` is a floating-point infinity or NaN, which a
configuration may spell but no value holds; `unreadable` stands for a part that is well formed but
has no value (a number out of range, half of a surrogate pair, brackets nested too deeply), and it
matters only if something looks at it.
-/

namespace EntityModel

/-- A tree of tables, lists and scalars as written. -/
inductive Document where
  | null
  | bool (b : Bool)
  | number (n : Number)
  | text (s : String)
  | list (items : List Document)
  | table (members : List (String × Document))
  | notFinite
  | unreadable
  deriving Inhabited

namespace Document

mutual
/-- The loose value of a document, if all of it is readable. -/
def toValue? : Document → Option Value
  | .null => some .null
  | .bool b => some (.bool b)
  | .number n => some (.number n)
  | .text s => some (.text s)
  | .list items => (toValues? items).map .list
  | .table members => (toMembers? members).map fun ms => .table (Value.sortMembers ms)
  | .notFinite => some .null
  | .unreadable => none

/-- The loose values of several documents. -/
def toValues? : List Document → Option (List Value)
  | [] => some []
  | d :: rest => do return (← d.toValue?) :: (← toValues? rest)

/-- The members of a table with their loose values, in written order. -/
def toMembers? : List (String × Document) → Option (List (String × Value))
  | [] => some []
  | (k, d) :: rest => do return (k, ← d.toValue?) :: (← toMembers? rest)
end

/-- A list of texts. -/
def texts (ss : List String) : Document := .list (ss.map .text)

/-- A natural number. -/
def nat (n : Nat) : Document := .number (.int n)

/-- The member of a table for an optional value: none where the value is absent. -/
def optionalMember {α : Type} (name : String) (f : α → Document) :
    Option α → List (String × Document)
  | none => []
  | some x => [(name, f x)]

end Document

namespace Value

mutual
/-- The document that a loose value is written as. -/
def toDocument : Value → Document
  | .null => .null
  | .bool b => .bool b
  | .number n => .number n
  | .text s => .text s
  | .list items => .list (toDocuments items)
  | .table members => .table (toDocumentMembers members)

/-- The documents that loose values are written as. -/
def toDocuments : List Value → List Document
  | [] => []
  | v :: rest => v.toDocument :: toDocuments rest

/-- The members that the members of a loose value are written as. -/
def toDocumentMembers : List (String × Value) → List (String × Document)
  | [] => []
  | (k, v) :: rest => (k, v.toDocument) :: toDocumentMembers rest
end

end Value

end EntityModel
