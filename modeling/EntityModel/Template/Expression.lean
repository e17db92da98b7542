import EntityModel.Template.Value

/-!
# Expressions of a template

An expression is a name or a literal, with members and filters behind it, and possibly compared with
another one. `Expression.eval` gives its value among the names in scope.
-/

namespace EntityModel.Template

/-- A filter turns a value into another one. -/
abbrev Filter := Value → Except Error Value

/-- An expression. -/
inductive Expression where
  | literal (v : Value)
  | name (n : String)
  | member (e : Expression) (n : String)
  | filtered (e : Expression) (filter : String)
  | equal (l r : Expression)
  deriving Inhabited

/-- The value of an expression. -/
def Expression.eval (filters : List (String × Filter)) (scope : List (String × Value)) :
    Expression → Except Error Value
  | literal v => .ok v
  | name n => .ok (Value.lookup n scope)
  | member e n => do (← e.eval filters scope).member n
  | filtered e filter => do
    let v ← e.eval filters scope
    match filters.lookup filter with
    | some f => f v
    | none => .error (.unknownFilter filter)
  | equal l r => do
    let v ← l.eval filters scope
    let w ← r.eval filters scope
    return .bool (v.equals w)

/-! ## Reading -/

/-- A token inside a tag. -/
inductive Token where
  | word (s : String)
  | int (n : Nat)
  | text (s : String)
  | dot
  | bar
  | equals
  deriving DecidableEq, Repr

namespace Token

/-- What the scanner of a tag is reading, with the characters read so far in reverse. -/
inductive Scan where
  | between
  | word (read : List Char)
  | digits (read : List Char)
  | quoted (mark : Char) (read : List Char)
  | escaped (mark : Char) (read : List Char)
  | halfEquals

/-- Blanks inside a tag. -/
def isBlank (c : Char) : Bool := c == ' ' || c == '\t' || c == '\n' || c == '\r'

/-- Characters a name may start with. -/
def startsWord (c : Char) : Bool := (c.isAlpha && c.toNat < 128) || c == '_'

/-- Characters a name may go on with. -/
def continuesWord (c : Char) : Bool := startsWord c || c.isDigit

/-- The character that one character after a backslash stands for. -/
def escape? : Char → Option Char
  | '\x22' => some '\x22'
  | '\x27' => some '\x27'
  | '\\' => some '\\'
  | '/' => some '/'
  | 'b' => some '\x08'
  | 'f' => some '\x0c'
  | 'n' => some '\n'
  | 'r' => some '\r'
  | 't' => some '\t'
  | _ => none

/-- The token of digits that were read in reverse. -/
def ofDigits (read : List Char) : Token :=
  .int (read.reverse.foldl (fun n c => 10 * n + (c.toNat - 48)) 0)

/-- The scanner after a character that starts a token or stands between two. -/
def start? (found : List Token) (c : Char) : Option (Scan × List Token) :=
  if isBlank c then some (.between, found)
  else if startsWord c then some (.word [c], found)
  else if c.isDigit then some (.digits [c], found)
  else if c = '\x22' ∨ c = '\x27' then some (.quoted c [], found)
  else if c = '.' then some (.between, .dot :: found)
  else if c = '|' then some (.between, .bar :: found)
  else if c = '=' then some (.halfEquals, found)
  else none

/-- The scanner after one more character, with the tokens found so far in reverse. -/
def step? (found : List Token) (c : Char) : Scan → Option (Scan × List Token)
  | .between => start? found c
  | .word read =>
    if continuesWord c then some (.word (c :: read), found)
    else start? (.word (String.ofList read.reverse) :: found) c
  | .digits read =>
    if c.isDigit then some (.digits (c :: read), found) else start? (ofDigits read :: found) c
  | .quoted mark read =>
    if c = mark then some (.between, .text (String.ofList read.reverse) :: found)
    else if c = '\\' then some (.escaped mark read, found)
    else some (.quoted mark (c :: read), found)
  | .escaped mark read => (escape? c).map fun d => (.quoted mark (d :: read), found)
  | .halfEquals => if c = '=' then some (.between, .equals :: found) else none

/-- The tokens found at the end of a tag. -/
def finish? (found : List Token) : Scan → Option (List Token)
  | .between => some found.reverse
  | .word read => some (.word (String.ofList read.reverse) :: found).reverse
  | .digits read => some (ofDigits read :: found).reverse
  | .quoted _ _ | .escaped _ _ | .halfEquals => none

/-- The tokens of the inside of a tag. -/
def scan? (cs : List Char) : Option (List Token) := do
  let (s, found) ← cs.foldlM (fun (s, found) c => step? found c s) (Scan.between, [])
  finish? found s

end Token

namespace Expression

/-- The expression that a name or literal stands for. -/
def ofToken? : Token → Option Expression
  | .word s =>
    if s = "true" ∨ s = "True" then some (.literal (.bool true))
    else if s = "false" ∨ s = "False" then some (.literal (.bool false))
    else if s = "none" ∨ s = "None" then some (.literal .none)
    else some (.name s)
  | .int n => some (.literal (.int n))
  | .text s => some (.literal (.text s))
  | _ => none

/-- Adds the members and filters in front of tokens to an expression. -/
def withSuffixes (e : Expression) : List Token → Expression × List Token
  | .dot :: .word n :: rest => withSuffixes (.member e n) rest
  | .bar :: .word n :: rest => withSuffixes (.filtered e n) rest
  | rest => (e, rest)

/-- The operand in front of tokens, and what follows it. -/
def operand? : List Token → Option (Expression × List Token)
  | [] => none
  | t :: rest => (ofToken? t).map fun e => withSuffixes e rest

/-- The expression that tokens consist of. -/
def ofTokens? (ts : List Token) : Option Expression := do
  let (l, rest) ← operand? ts
  match rest with
  | [] => return l
  | .equals :: rest =>
    let (r, rest) ← operand? rest
    if rest.isEmpty then some (.equal l r) else none
  | _ => none

end Expression

end EntityModel.Template
