import EntityModel.Document.Basic

/-!
# Writing JSON

A document is written compactly, without blanks, or with one member or item a line and two blanks
for each level. In a text the quotation mark, the backslash and the control characters below the
blank are escaped and nothing else. A floating-point number is written positionally from `1e-5` up
to below `1e16`, with its point, and in exponential form otherwise.
-/

namespace EntityModel.Json

/-- How floating-point numbers are laid out. -/
def realLayout : DecimalLayout := ⟨some (-4), some 16⟩

/-- A hexadecimal digit in lower case. -/
def hexDigit (n : Nat) : Char := Nat.digitChar n

/-- The escape of a control character by its code. -/
def codeEscape (n : Nat) : List Char :=
  ['\\', 'u', hexDigit (n / 4096 % 16), hexDigit (n / 256 % 16), hexDigit (n / 16 % 16),
    hexDigit (n % 16)]

/-- A character as it stands in a quoted text. -/
def escape (c : Char) : List Char :=
  if c = '\x22' then ['\\', '\x22']
  else if c = '\\' then ['\\', '\\']
  else if c = '\x08' then ['\\', 'b']
  else if c = '\t' then ['\\', 't']
  else if c = '\n' then ['\\', 'n']
  else if c = '\x0c' then ['\\', 'f']
  else if c = '\r' then ['\\', 'r']
  else if c.toNat < 32 then codeEscape c.toNat
  else [c]

/-- A text in quotation marks. -/
def quoted (s : String) : List Char := '\x22' :: (s.toList.flatMap escape ++ ['\x22'])

/-- What is written for the two leaves that have no value, and for null. -/
def nullText : List Char := ['n', 'u', 'l', 'l']

/-- A truth value. -/
def boolText : Bool → List Char
  | true => ['t', 'r', 'u', 'e']
  | false => ['f', 'a', 'l', 's', 'e']

mutual
/-- A document without any blanks. -/
def compactChars : Document → List Char
  | .null | .notFinite | .unreadable => nullText
  | .bool b => boolText b
  | .number n => n.write realLayout
  | .text s => quoted s
  | .list [] => ['[', ']']
  | .list (d :: rest) => '[' :: (compactChars d ++ compactItems rest)
  | .table [] => ['\x7b', '\x7d']
  | .table ((k, d) :: rest) =>
    '\x7b' :: (quoted k ++ ':' :: (compactChars d ++ compactMembers rest))

/-- The items after the first one, and the closing bracket. -/
def compactItems : List Document → List Char
  | [] => [']']
  | d :: rest => ',' :: (compactChars d ++ compactItems rest)

/-- The members after the first one, and the closing bracket. -/
def compactMembers : List (String × Document) → List Char
  | [] => ['\x7d']
  | (k, d) :: rest => ',' :: (quoted k ++ ':' :: (compactChars d ++ compactMembers rest))
end

/-- A new line at a level of nesting. -/
def newLine (level : Nat) : List Char := '\n' :: List.replicate (2 * level) ' '

mutual
/-- A document at a level of nesting, with one item or member a line. -/
def prettyChars (level : Nat) : Document → List Char
  | .null | .notFinite | .unreadable => nullText
  | .bool b => boolText b
  | .number n => n.write realLayout
  | .text s => quoted s
  | .list [] => ['[', ']']
  | .list (d :: rest) =>
    '[' :: (newLine (level + 1) ++ prettyChars (level + 1) d ++ prettyItems level rest)
  | .table [] => ['\x7b', '\x7d']
  | .table ((k, d) :: rest) =>
    '\x7b' :: (newLine (level + 1) ++ quoted k ++ ':' :: ' ' ::
      (prettyChars (level + 1) d ++ prettyMembers level rest))

/-- The items after the first one, and the closing bracket. -/
def prettyItems (level : Nat) : List Document → List Char
  | [] => newLine level ++ [']']
  | d :: rest => ',' :: (newLine (level + 1) ++ prettyChars (level + 1) d ++ prettyItems level rest)

/-- The members after the first one, and the closing bracket. -/
def prettyMembers (level : Nat) : List (String × Document) → List Char
  | [] => newLine level ++ ['\x7d']
  | (k, d) :: rest =>
    ',' :: (newLine (level + 1) ++ quoted k ++ ':' :: ' ' ::
      (prettyChars (level + 1) d ++ prettyMembers level rest))
end

/-- The compact text of a document. -/
def compact (d : Document) : String := String.ofList (compactChars d)

/-- The text of a document with one item or member a line. -/
def pretty (d : Document) : String := String.ofList (prettyChars 0 d)

end EntityModel.Json

namespace EntityModel.Value

/-- A loose value in a message: a text as it is, anything else as compact JSON. -/
def describe : Value → String
  | .text s => s
  | v => Json.compact v.toDocument

end EntityModel.Value
