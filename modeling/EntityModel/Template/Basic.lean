import EntityModel.Template.Expression
import EntityModel.Template.Segment

/-!
# Templates

A template is a list of nodes: text, values to put out, loops and conditions. `Template.ofSegments?`
nests the segments of a text, and `Template.render` puts the text together.
-/

namespace EntityModel.Template

/-- A part of a template. -/
inductive Node where
  | text (s : String)
  | output (e : Expression)
  | loop (name : String) (items : Expression) (body otherwise : List Node)
  | condition (test : Expression) (body otherwise : List Node)
  deriving Inhabited

/-! ## Rendering -/

section
variable (filters : List (String × Filter))

mutual
/-- The text of a node. -/
def Node.render (scope : List (String × Value)) : Node → Except Error String
  | .text s => .ok s
  | .output e => do return (← e.eval filters scope).write
  | .loop name items body otherwise => do
    match ← (← items.eval filters scope).items with
    | [] => renderAll scope otherwise
    | values =>
      return String.join (← values.mapM fun v => renderAll ((name, v) :: scope) body)
  | .condition test body otherwise => do
    if (← test.eval filters scope).isTrue then renderAll scope body else renderAll scope otherwise

/-- The text of several nodes. -/
def renderAll (scope : List (String × Value)) : List Node → Except Error String
  | [] => .ok ""
  | n :: rest => do return (← n.render scope) ++ (← renderAll scope rest)
end

end

/-! ## Reading -/

/-- A control tag. -/
inductive Tag where
  | startLoop (name : String) (items : Expression)
  | startCondition (test : Expression)
  | otherwise
  | endLoop
  | endCondition

/-- The control tag of tokens. -/
def Tag.ofTokens? : List Token → Option Tag
  | .word "for" :: .word name :: .word "in" :: items =>
    (Expression.ofTokens? items).map (.startLoop name)
  | .word "if" :: test => (Expression.ofTokens? test).map .startCondition
  | [.word "else"] => some .otherwise
  | [.word "endfor"] => some .endLoop
  | [.word "endif"] => some .endCondition
  | _ => none

/-- A block that is still open, with the nodes of its first part once that is complete. -/
inductive Opening where
  | loop (name : String) (items : Expression) (body : Option (List Node))
  | condition (test : Expression) (body : Option (List Node))

/-- An open block, and the nodes that stand in front of it, in reverse. -/
structure Frame where
  opening : Opening
  before : List Node

/-- The open blocks, the innermost first, and the nodes read in it, in reverse. -/
structure Nesting where
  frames : List Frame
  read : List Node

namespace Nesting

/-- Adds a node. -/
def add (n : Nesting) (node : Node) : Nesting := { n with read := node :: n.read }

/-- The nesting after a control tag. -/
def enter? (n : Nesting) (t : Tag) : Option Nesting :=
  match t, n.frames with
  | .startLoop name items, frames => some ⟨⟨.loop name items none, n.read⟩ :: frames, []⟩
  | .startCondition test, frames => some ⟨⟨.condition test none, n.read⟩ :: frames, []⟩
  | .otherwise, ⟨.loop name items none, before⟩ :: outer =>
    some ⟨⟨.loop name items (some n.read.reverse), before⟩ :: outer, []⟩
  | .otherwise, ⟨.condition test none, before⟩ :: outer =>
    some ⟨⟨.condition test (some n.read.reverse), before⟩ :: outer, []⟩
  | .endLoop, ⟨.loop name items none, before⟩ :: outer =>
    some ⟨outer, .loop name items n.read.reverse [] :: before⟩
  | .endLoop, ⟨.loop name items (some body), before⟩ :: outer =>
    some ⟨outer, .loop name items body n.read.reverse :: before⟩
  | .endCondition, ⟨.condition test none, before⟩ :: outer =>
    some ⟨outer, .condition test n.read.reverse [] :: before⟩
  | .endCondition, ⟨.condition test (some body), before⟩ :: outer =>
    some ⟨outer, .condition test body n.read.reverse :: before⟩
  | _, _ => none

/-- The nesting after one more segment. -/
def step? (n : Nesting) : Segment → Option Nesting
  | .text cs => some (n.add (.text (String.ofList cs)))
  | .output inside => do
    return n.add (.output (← Expression.ofTokens? (← Token.scan? inside)))
  | .control inside => do n.enter? (← Tag.ofTokens? (← Token.scan? inside))

end Nesting

/-- The nodes of segments, if every block is closed. -/
def ofSegments? (segments : List Segment) : Option (List Node) := do
  let n ← segments.foldlM Nesting.step? ⟨[], []⟩
  if n.frames.isEmpty then some n.read.reverse else none

/-- The nodes of a text. -/
def read? (source : String) : Option (List Node) := do
  ofSegments? (← Segment.scan? source.toList)

/-- Renders a text with the given names in scope. -/
def render (filters : List (String × Filter)) (source : String) (scope : List (String × Value)) :
    Except Error String :=
  match read? source with
  | none => .error .malformed
  | some nodes => renderAll filters scope nodes

end EntityModel.Template
