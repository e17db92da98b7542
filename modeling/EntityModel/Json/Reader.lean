import EntityModel.Document.Basic
import EntityModel.Json.Lexeme

/-!
# Reading JSON

The tokens of a text run a machine whose stack holds the lists and tables that are still open, each
with what was read of it in reverse. A bracket nested more deeply than `greatestDepth` makes its
list or table unreadable, and so does a name that is; everything else about such a part must be
well formed all the same.
-/

namespace EntityModel.Json

/-- How deeply brackets may be nested in what is read. -/
def greatestDepth : Nat := 127

/-- A list or table that is still open. The names of a table may be unreadable; `key` is the name
whose value is next. -/
inductive Frame where
  | list (read : List Document)
  | table (read : List (Option String × Document)) (key : Option String)

/-- What may come next. -/
inductive Expectation where
  | value
  | valueOrEnd
  | key
  | keyOrEnd
  | colon
  | commaOrEnd
  | nothing (result : Document)

/-- The open lists and tables, the innermost first, and what may come next. -/
structure Machine where
  stack : List Frame
  next : Expectation

namespace Machine

/-- Before the first token. -/
def initial : Machine := ⟨[], .value⟩

/-- The document of a closed list or table that was opened at a depth. -/
def close (depth : Nat) : Frame → Document
  | .list read => if depth ≤ greatestDepth then .list read.reverse else .unreadable
  | .table read _ =>
    match read.reverse.mapM fun m => m.1.map fun k => (k, m.2) with
    | some members => if depth ≤ greatestDepth then .table members else .unreadable
    | none => .unreadable

/-- Gives a document to the innermost open list or table, or ends with it. -/
def deliver (d : Document) : List Frame → Machine
  | [] => ⟨[], .nothing d⟩
  | .list read :: outer => ⟨.list (d :: read) :: outer, .commaOrEnd⟩
  | .table read key :: outer => ⟨.table ((key, d) :: read) none :: outer, .commaOrEnd⟩

/-- Closes the innermost open list or table. -/
def shut? : List Frame → Option Machine
  | [] => none
  | f :: outer => some (deliver (close (outer.length + 1) f) outer)

/-- Takes a token where a value may start. -/
def value? (stack : List Frame) : Token → Option Machine
  | .null => some (deliver .null stack)
  | .bool b => some (deliver (.bool b) stack)
  | .number n => some (deliver ((n.map Document.number).getD .unreadable) stack)
  | .text s => some (deliver ((s.map Document.text).getD .unreadable) stack)
  | .mark '[' => some ⟨.list [] :: stack, .valueOrEnd⟩
  | .mark '\x7b' => some ⟨.table [] none :: stack, .keyOrEnd⟩
  | .mark _ => none

/-- Takes a token where the name of a member may start. -/
def key? : List Frame → Token → Option Machine
  | .table read _ :: outer, .text s => some ⟨.table read s :: outer, .colon⟩
  | _, _ => none

/-- The machine after one more token. -/
def step? (m : Machine) (t : Token) : Option Machine :=
  match m.next, m.stack, t with
  | .value, stack, t => value? stack t
  | .valueOrEnd, stack, .mark ']' => shut? stack
  | .valueOrEnd, stack, t => value? stack t
  | .key, stack, t => key? stack t
  | .keyOrEnd, stack, .mark '\x7d' => shut? stack
  | .keyOrEnd, stack, t => key? stack t
  | .colon, stack, .mark ':' => some ⟨stack, .value⟩
  | .commaOrEnd, .list read :: outer, .mark ',' => some ⟨.list read :: outer, .value⟩
  | .commaOrEnd, .list read :: outer, .mark ']' => shut? (.list read :: outer)
  | .commaOrEnd, .table read key :: outer, .mark ',' => some ⟨.table read key :: outer, .key⟩
  | .commaOrEnd, .table read key :: outer, .mark '\x7d' => shut? (.table read key :: outer)
  | _, _, _ => none

/-- The document, if the machine has read all of one. -/
def result? (m : Machine) : Option Document :=
  match m.next with
  | .nothing d => some d
  | _ => none

end Machine

/-- The document of a list of tokens. -/
def ofTokens? (ts : List Token) : Option Document := do
  (← ts.foldlM Machine.step? Machine.initial).result?

/-- The document of a text. -/
def ofChars? (cs : List Char) : Option Document := do ofTokens? (← tokens? cs)

/-- The document of a text. -/
def read? (s : String) : Option Document := ofChars? s.toList

end EntityModel.Json
