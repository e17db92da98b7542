import EntityModel.Toml.Assembly
import EntityModel.Toml.Scalar

/-!
# Reading TOML

A text is a sequence of lines that set a key, open a table or add a table to an array. The readers
of values and of statements take at least one character in two steps, so the length of the text
bounds their steps.
-/

namespace EntityModel.Toml

mutual
/-- A value inside fewer than `depth` brackets more, and what follows it. -/
def value? : Nat → Nat → List Char → Option (Document × List Char)
  | 0, _, _ => none
  | steps + 1, depth, cs =>
    match cs with
    | '[' :: rest => if depth ≤ 1 then none else items? steps (depth - 1) [] rest
    | '\x7b' :: rest =>
      if depth ≤ 1 then none
      else
        match skipBlanks rest with
        | '\x7d' :: rest => some (.table [], rest)
        | rest => members? steps (depth - 1) [] rest
    | '\x22' :: _ | '\x27' :: _ => (string? cs).map fun (s, rest) => (.text (String.ofList s), rest)
    | cs => scalar? cs

/-- The items of an array after its bracket or a comma, with the items before in reverse. -/
def items? : Nat → Nat → List Document → List Char → Option (Document × List Char)
  | 0, _, _, _ => none
  | steps + 1, depth, read, cs => do
    match ← gap? false cs with
    | ']' :: rest => return (.list read.reverse, rest)
    | cs =>
      let (d, cs) ← value? steps depth cs
      match ← gap? false cs with
      | ',' :: rest => items? steps depth (d :: read) rest
      | ']' :: rest => return (.list (d :: read).reverse, rest)
      | _ => none

/-- The members of a table in braces after its bracket or a comma, with those before. -/
def members? : Nat → Nat → Node.Members → List Char → Option (Document × List Char)
  | 0, _, _, _ => none
  | steps + 1, depth, read, cs => do
    let (key, cs) ← key? (keyLimit - 1) cs
    match cs with
    | '=' :: cs =>
      let (d, cs) ← value? steps depth (skipBlanks cs)
      let read ← Node.setKey? key d read
      match skipBlanks cs with
      | ',' :: rest => members? steps depth read rest
      | '\x7d' :: rest => return (.table (Node.toDocumentMembers read), rest)
      | _ => none
    | _ => none
end

/-- What was read so far: the tree, and the header that keys go under. -/
structure Progress where
  root : Node.Members
  header : List String

/-- One statement at the start of a line, and what follows it. -/
def statement? (steps : Nat) (p : Progress) (cs : List Char) : Option (Progress × List Char) :=
  match cs with
  | '[' :: '[' :: rest => do
    let (header, rest) ← key? (keyLimit - 1) rest
    match rest with
    | ']' :: ']' :: rest => return (⟨← Node.addTable? header p.root, header⟩, rest)
    | _ => none
  | '[' :: rest => do
    let (header, rest) ← key? (keyLimit - 1) rest
    match rest with
    | ']' :: rest => return (⟨← Node.openTable? header p.root, header⟩, rest)
    | _ => none
  | cs => do
    let (key, rest) ← key? (keyLimit - 1) cs
    match rest with
    | '=' :: rest =>
      let (d, rest) ← value? steps depthLimit (skipBlanks rest)
      return (⟨← Node.setUnder? p.header key d p.root, p.header⟩, rest)
    | _ => none

/-- The lines of a text, each a statement, a comment or blank. -/
def lines? : Nat → Progress → List Char → Option Progress
  | 0, _, _ => none
  | steps + 1, p, cs =>
    match skipBlanks cs with
    | [] => some p
    | cs@(c :: _) =>
      if c = '#' ∨ c = '\n' ∨ c = '\r' then do lines? steps p (← restOfLine? cs)
      else do
        let (p, rest) ← statement? (2 * cs.length) p cs
        lines? steps p (← restOfLine? rest)

/-- The document of a text; a byte order mark in front is ignored. -/
def read? (text : String) : Option Document := do
  let cs := match text.toList with
    | '\uFEFF' :: rest => rest
    | cs => cs
  let p ← lines? (cs.length + 1) ⟨[], []⟩ cs
  return .table (Node.toDocumentMembers p.root)

end EntityModel.Toml
