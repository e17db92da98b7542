/-!
# Values of a template

A template is rendered with a record of texts, lists and further records. A name that is not there
has the value `undefined`, which is written as nothing; a value that is there but absent is `none`.
-/

namespace EntityModel.Template

/-- A value a template works with. The members of a record are in ascending order of their names. -/
inductive Value where
  | undefined
  | none
  | bool (b : Bool)
  | int (n : Int)
  | text (s : String)
  | list (items : List Value)
  | record (members : List (String × Value))
  deriving Inhabited

/-- What stops the rendering of a template. -/
inductive Error where
  | malformed
  | unknownFilter (name : String)
  | invalidOperation (message : String)
  | undefinedValue
  deriving DecidableEq, Repr, Inhabited

/-- The message of an error. -/
def Error.message : Error → String
  | .malformed => "the template is malformed"
  | .unknownFilter name => "the filter '" ++ name ++ "' is unknown"
  | .invalidOperation message => message
  | .undefinedValue => "a member of an undefined value was asked for"

namespace Value

/-- What stands under a name in a list of members. -/
def lookup (name : String) : List (String × Value) → Value
  | [] => undefined
  | (k, v) :: rest => if k = name then v else lookup name rest

/-- The text of an optional text, or `none`. -/
def ofOption : Option String → Value
  | some s => text s
  | Option.none => none

/-- A member of a value; an undefined value has none that could be asked for. -/
def member (v : Value) (name : String) : Except Error Value :=
  match v with
  | undefined => .error .undefinedValue
  | record members => .ok (lookup name members)
  | _ => .ok undefined

/-- Whether a value counts as true in a condition. -/
def isTrue : Value → Bool
  | undefined | none => false
  | bool b => b
  | int n => n != 0
  | text s => !s.isEmpty
  | list items => !items.isEmpty
  | record members => !members.isEmpty

/-- Whether two scalars are equal; a list or a record is equal to nothing. -/
def equals : Value → Value → Bool
  | undefined, undefined => true
  | none, none => true
  | bool a, bool b => a == b
  | int m, int n => m == n
  | text s, text t => s == t
  | _, _ => false

/-- What a loop over a value runs through: the items of a list, the characters of a text or the
names of a record; nothing for an absent value. -/
def items : Value → Except Error (List Value)
  | undefined | none => .ok []
  | text s => .ok (s.toList.map fun c => text (String.singleton c))
  | list items => .ok items
  | record members => .ok (members.map fun m => text m.1)
  | bool _ | int _ => .error (.invalidOperation "the value cannot be iterated over")

/-- A character of a text that is written with quotation marks. -/
def escapeChar (c : Char) : List Char :=
  if c = '\x22' then ['\\', '\x22']
  else if c = '\\' then ['\\', '\\']
  else if c = '\n' then ['\\', 'n']
  else if c = '\r' then ['\\', 'r']
  else if c = '\t' then ['\\', 't']
  else if c.toNat = 0 then ['\\', '0']
  else [c]

/-- A text with quotation marks. -/
def quoted (s : String) : String :=
  String.ofList ('\x22' :: (s.toList.flatMap escapeChar ++ ['\x22']))

/-- What is written for a truth value. -/
def boolText (b : Bool) : String := if b then "True" else "False"

mutual
/-- A value inside a list or a record. -/
def inner : Value → String
  | undefined => "undefined"
  | none => "None"
  | bool b => boolText b
  | int n => toString n
  | text s => quoted s
  | list items => "[" ++ ", ".intercalate (inners items) ++ "]"
  | record members => "\x7b" ++ ", ".intercalate (innerMembers members) ++ "\x7d"

/-- The items of a list. -/
def inners : List Value → List String
  | [] => []
  | v :: rest => inner v :: inners rest

/-- The members of a record. -/
def innerMembers : List (String × Value) → List String
  | [] => []
  | (k, v) :: rest => (quoted k ++ ": " ++ inner v) :: innerMembers rest
end

/-- What is written for a value. -/
def write : Value → String
  | undefined => ""
  | text s => s
  | v => inner v

end Value

end EntityModel.Template
