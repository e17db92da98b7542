import EntityModel.Document.Basic
import EntityModel.Toml.Lexical

/-!
# Writing TOML

A table is written as a block of its own: its header, then a line for each member that is no table
and no array of tables, and behind it the blocks of those that are. A table that holds nothing but
tables has no header, the root has none either, and blocks are separated by a blank line. Inside a
line an array of two or more items has one item a line.

A text is written in the plainest form that can hold it. Null, a number that does not fit into 64
bits with a sign, and whatever no text of TOML stands for cannot be written.
-/

namespace EntityModel.Toml

/-- Floating-point numbers are written positionally, whatever their size. -/
def realLayout : DecimalLayout := ⟨none, none⟩

mutual
/-- Whether a document can be written. -/
def isWritable : Document → Bool
  | .null | .notFinite | .unreadable => false
  | .bool _ | .text _ => true
  | .number (.int n) => Number.fitsSigned64 n
  | .number (.real _) => true
  | .list items => areWritable items
  | .table members => areWritableMembers members

/-- Whether all documents can be written. -/
def areWritable : List Document → Bool
  | [] => true
  | d :: rest => isWritable d && areWritable rest

/-- Whether the values of all members can be written. -/
def areWritableMembers : List (String × Document) → Bool
  | [] => true
  | (_, d) :: rest => isWritable d && areWritableMembers rest
end

/-! ## Texts -/

/-- The length of the longest run of one character. -/
def longestRun (c : Char) (cs : List Char) : Nat :=
  (cs.foldl (fun (current, longest) d =>
    if c = d then (current + 1, max longest (current + 1)) else (0, longest)) (0, 0)).2

/-- Whether a character can only be written by an escape; tab and newline can be written as such. -/
def needsEscape (c : Char) : Bool := (c.toNat < 32 && c != '\t' && c != '\n') || c.toNat == 127

/-- How a text is enclosed. -/
inductive Quoting where
  | basic
  | literal
  | basicLines
  | literalLines
  deriving DecidableEq

/-- The plainest quoting that can hold a text of values. -/
def quotingOf (cs : List Char) : Quoting :=
  let escapes := cs.any needsEscape
  let lines := cs.contains '\n'
  let backslash := cs.contains '\\'
  let double := longestRun '\x22' cs
  let single := longestRun '\x27' cs
  if !escapes && !backslash && double = 0 && !lines then .basic
  else if !escapes && single = 0 && !lines then .literal
  else if !escapes && !backslash && double ≤ 2 then .basicLines
  else if !escapes && single ≤ 2 then .literalLines
  else if lines then .basicLines
  else .basic

/-- The plainest quoting that can hold a name. -/
def keyQuotingOf (cs : List Char) : Quoting :=
  let escapes := cs.any fun c => needsEscape c || c == '\n'
  if !escapes && !cs.contains '\\' && !cs.contains '\x22' then .basic
  else if !escapes && !cs.contains '\x27' then .literal
  else .basic

/-- A hexadecimal digit in upper case. -/
def hexDigit (n : Nat) : Char := (Nat.digitChar n).toUpper

/-- The characters of a text with escapes, where up to `quotes` quotation marks in a row stand for
themselves and a newline does if `lines` holds; `run` counts the quotation marks right before. -/
def escaped (quotes : Nat) (lines : Bool) : Nat → List Char → List Char
  | _, [] => []
  | run, c :: rest =>
    if c = '\x22' then
      if run < quotes then c :: escaped quotes lines (run + 1) rest
      else '\\' :: c :: escaped quotes lines 0 rest
    else if c = '\\' then '\\' :: '\\' :: escaped quotes lines 0 rest
    else if c = '\x08' then '\\' :: 'b' :: escaped quotes lines 0 rest
    else if c = '\t' then '\\' :: 't' :: escaped quotes lines 0 rest
    else if c = '\n' then
      if lines then c :: escaped quotes lines 0 rest else '\\' :: 'n' :: escaped quotes lines 0 rest
    else if c = '\x0c' then '\\' :: 'f' :: escaped quotes lines 0 rest
    else if c = '\r' then '\\' :: 'r' :: escaped quotes lines 0 rest
    else if needsEscape c then
      '\\' :: 'u' :: '0' :: '0' :: hexDigit (c.toNat / 16) :: hexDigit (c.toNat % 16) ::
        escaped quotes lines 0 rest
    else c :: escaped quotes lines 0 rest

/-- A text enclosed in the given way; one of several lines starts on a new line. -/
def enclose (cs : List Char) : Quoting → List Char
  | .basic => '\x22' :: (escaped 0 false 0 cs ++ ['\x22'])
  | .literal => '\x27' :: (cs ++ ['\x27'])
  | .basicLines =>
    ['\x22', '\x22', '\x22'] ++ (if cs.contains '\n' then ['\n'] else []) ++ escaped 2 true 0 cs ++
      ['\x22', '\x22', '\x22']
  | .literalLines =>
    ['\x27', '\x27', '\x27'] ++ (if cs.contains '\n' then ['\n'] else []) ++ cs ++
      ['\x27', '\x27', '\x27']

/-- A text as a value. -/
def textChars (s : String) : List Char := enclose s.toList (quotingOf s.toList)

/-- A name as one part of a key. -/
def keyChars (s : String) : List Char :=
  let cs := s.toList
  if !cs.isEmpty && cs.all isBareKeyChar then cs else enclose cs (keyQuotingOf cs)

/-- The parts of a key with dots between them. -/
def pathChars (path : List String) : List Char := ['.'].intercalate (path.map keyChars)

/-! ## Values -/

mutual
/-- A document as the value of a line. -/
def valueChars : Document → List Char
  | .null | .notFinite | .unreadable => []
  | .bool true => ['t', 'r', 'u', 'e']
  | .bool false => ['f', 'a', 'l', 's', 'e']
  | .number n => n.write realLayout
  | .text s => textChars s
  | .list [] => ['[', ']']
  | .list [d] => '[' :: (valueChars d ++ [']'])
  | .list items => '[' :: itemChars items
  | .table [] => ['\x7b', '\x7d']
  | .table ((k, d) :: rest) =>
    '\x7b' :: ' ' :: (keyChars k ++ ' ' :: '=' :: ' ' :: (valueChars d ++ memberChars rest))

/-- The items of an array of several lines, and its closing bracket. -/
def itemChars : List Document → List Char
  | [] => ['\n', ']']
  | d :: rest => '\n' :: ' ' :: ' ' :: ' ' :: ' ' :: (valueChars d ++ ',' :: itemChars rest)

/-- The members of a table in braces after the first one, and its closing bracket. -/
def memberChars : List (String × Document) → List Char
  | [] => [' ', '\x7d']
  | (k, d) :: rest =>
    ',' :: ' ' :: (keyChars k ++ ' ' :: '=' :: ' ' :: (valueChars d ++ memberChars rest))
end

/-! ## Blocks -/

/-- Whether a document is a table. -/
def isTable : Document → Bool
  | .table _ => true
  | _ => false

/-- Whether a document has blocks of its own: a table, or an array of nothing but tables. -/
def hasBlocks : Document → Bool
  | .table _ => true
  | .list items => !items.isEmpty && items.all isTable
  | _ => false

/-- The line of a member. -/
def memberLine (m : String × Document) : List Char :=
  keyChars m.1 ++ ' ' :: '=' :: ' ' :: (valueChars m.2 ++ ['\n'])

/-- The lines of the members that have no blocks of their own. -/
def memberLines (ms : List (String × Document)) : List Char :=
  (ms.filter fun m => !hasBlocks m.2).flatMap memberLine

/-- The block of a table at a path: none for one that holds nothing but tables. -/
def tableBlock (path : List String) (ms : List (String × Document)) : List (List Char) :=
  if !ms.isEmpty && ms.all fun m => hasBlocks m.2 then []
  else ['[' :: (pathChars path ++ ']' :: '\n' :: memberLines ms)]

/-- The block of a table in an array at a path. -/
def itemBlock (path : List String) (ms : List (String × Document)) : List Char :=
  '[' :: '[' :: (pathChars path ++ ']' :: ']' :: '\n' :: memberLines ms)

mutual
/-- The blocks of the members of the table at a path. -/
def memberBlocks (path : List String) : List (String × Document) → List (List Char)
  | [] => []
  | (k, d) :: rest => documentBlocks (path ++ [k]) d ++ memberBlocks path rest

/-- The blocks of a document at a path. -/
def documentBlocks (path : List String) : Document → List (List Char)
  | .table ms => tableBlock path ms ++ memberBlocks path ms
  | .list items => if !items.isEmpty && items.all isTable then itemBlocks path items else []
  | _ => []

/-- The blocks of the tables of an array at a path. -/
def itemBlocks (path : List String) : List Document → List (List Char)
  | [] => []
  | .table ms :: rest => itemBlock path ms :: (memberBlocks path ms ++ itemBlocks path rest)
  | _ :: rest => itemBlocks path rest
end

/-- The block of the members of the root, if there are any without blocks of their own. -/
def rootBlock (ms : List (String × Document)) : List (List Char) :=
  if ms.all fun m => hasBlocks m.2 then [] else [memberLines ms]

/-- The text of a table, if all of it can be written. -/
def print? : Document → Option String
  | .table ms =>
    if areWritableMembers ms then
      some (String.ofList (['\n'].intercalate (rootBlock ms ++ memberBlocks [] ms)))
    else none
  | _ => none

end EntityModel.Toml
