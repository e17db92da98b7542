/-!
# Files of variables

A file of variables gives a variable and its value on a line, `NAME=value`. The value may be quoted
in part; behind white space that is not quoted only a comment may follow. The first line that does
not fit ends the file.
-/

namespace EntityModel.CommandLine.Environment

/-- Whether a character is a blank. -/
def isBlank (c : Char) : Bool := c == ' ' || c == '\t'

/-- Drops blanks. -/
def skipBlanks (cs : List Char) : List Char := cs.dropWhile isBlank

/-- Whether the name of a variable may start with a character. -/
def startsName (c : Char) : Bool := (c.isAlpha && c.toNat < 128) || c == '_'

/-- Whether the name of a variable may go on with a character. -/
def continuesName (c : Char) : Bool := startsName c || c.isDigit || c == '.'

/-- What stands around a character of a value. -/
inductive Quote where
  | unquoted
  | single
  | double
  | ended
  deriving DecidableEq, Repr

/-- The rest of a value, of which quotation marks are dropped. -/
def value? (q : Quote) : List Char → Option (List Char)
  | [] => if q = .unquoted ∨ q = .ended then some [] else none
  | c :: rest =>
    match q with
    | .ended =>
      if isBlank c then value? .ended rest
      else if c = '#' then some []
      else none
    | .single => if c = '\x27' then value? .unquoted rest else (value? .single rest).map (c :: ·)
    | .double | .unquoted =>
      if c = '\\' then
        match rest with
        | d :: rest =>
          if d = 'n' then (value? q rest).map ('\n' :: ·)
          else if ['\\', '\x27', '\x22', '$', ' '].contains d then (value? q rest).map (d :: ·)
          else none
        | [] => none
      else if c = '\x22' then value? (if q = .double then .unquoted else .double) rest
      else if q = .double then (value? .double rest).map (c :: ·)
      else if c = '\x27' then value? .single rest
      else if isBlank c then value? .ended rest
      else (value? .unquoted rest).map (c :: ·)

/-- The name at the start of a line, and what follows it. -/
def name? (cs : List Char) : Option (List Char × List Char) :=
  match cs.takeWhile continuesName with
  | [] => none
  | c :: more =>
    if startsName c then some (c :: more, skipBlanks (cs.dropWhile continuesName)) else none

/-- The value behind an equality sign. -/
def assigned? : List Char → Option (List Char)
  | '=' :: rest =>
    match skipBlanks rest with
    | [] | '#' :: _ => some []
    | cs => value? .unquoted cs
  | _ => none

/-- What a line says; the outer `none` is a line that does not fit, the inner one a line that says
nothing. The word `export` may stand in front of a name. -/
def line? (line : List Char) : Option (Option (String × String)) := do
  let cs := skipBlanks line
  if cs.isEmpty || cs.head? == some '#' then return none
  let (name, rest) ← name? cs
  let (name, rest) ←
    if String.ofList name = "export" ∧ rest.head? ≠ some '=' then name? rest else some (name, rest)
  return some (String.ofList name, String.ofList (← assigned? rest))

/-- The first value that lines give a variable. -/
def find? (name : String) : List (List Char) → Option String
  | [] => none
  | l :: rest =>
    match line? l with
    | none => none
    | some (some (n, value)) => if n = name then some value else find? name rest
    | some none => find? name rest

/-- The value that a file of variables gives a variable. -/
def lookup? (text name : String) : Option String :=
  find? name ((text.splitOn "\n").map fun l => (l.toList.filter (· ≠ '\r')))

end EntityModel.CommandLine.Environment
