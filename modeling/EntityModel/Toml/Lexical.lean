import EntityModel.Json.Lexeme

/-!
# Blanks, comments, strings and keys of TOML

Each reader takes something from the front of a text and gives what is left behind it; `none` means
that the text does not start with it. Strings come in four forms: with or without escapes, on one
line or on several. A line end inside a string of several lines counts as one newline, one at its
very start is dropped, and a backslash at the end of a line joins it to the next text.
-/

namespace EntityModel.Toml

/-- Blanks within a line. -/
def isBlank (c : Char) : Bool := c == ' ' || c == '\t'

/-- Characters that no comment and no string may hold as they are. -/
def isControl (c : Char) : Bool := (c.toNat < 32 && c != '\t') || c.toNat == 127

/-- Drops the blanks in front. -/
def skipBlanks (cs : List Char) : List Char := cs.dropWhile isBlank

/-- Takes a line end, or finds that the text has ended. -/
def lineEnd? : List Char → Option (List Char)
  | [] => some []
  | '\n' :: rest => some rest
  | '\r' :: '\n' :: rest => some rest
  | _ => none

/-- Takes the rest of a comment with its line end. -/
def comment? : List Char → Option (List Char)
  | [] => some []
  | '\n' :: rest => some rest
  | '\r' :: '\n' :: rest => some rest
  | c :: rest => if isControl c then none else comment? rest

/-- Takes what may stand between a statement and the next line. -/
def restOfLine? (cs : List Char) : Option (List Char) :=
  match skipBlanks cs with
  | '#' :: rest => comment? rest
  | rest => lineEnd? rest

/-- Takes blanks, line ends and comments; the flag says whether a comment is being read. -/
def gap? : Bool → List Char → Option (List Char)
  | _, [] => some []
  | _, '\n' :: rest => gap? false rest
  | _, '\r' :: '\n' :: rest => gap? false rest
  | true, c :: rest => if isControl c then none else gap? true rest
  | false, '#' :: rest => gap? true rest
  | false, c :: rest => if isBlank c then gap? false rest else some (c :: rest)

/-! ## Strings -/

/-- The character of a code, which is not half of a surrogate pair. -/
def charOfCode? (n : Nat) : Option Char := if n.isValidChar then some (Char.ofNat n) else none

/-- The number of hexadecimal digits. -/
def hexNumber? (cs : List Char) : Option Nat :=
  cs.foldlM (fun n c => (Json.Lexeme.hexValue? c).map (16 * n + ·)) 0

/-- The character that one character after a backslash stands for. -/
def simpleEscape? : Char → Option Char
  | '\x22' => some '\x22'
  | '\\' => some '\\'
  | 'b' => some '\x08'
  | 'f' => some '\x0c'
  | 'n' => some '\n'
  | 'r' => some '\r'
  | 't' => some '\t'
  | _ => none

/-- Puts a character in front of what a string reader finds. -/
def consTo (c : Char) (r : Option (List Char × List Char)) : Option (List Char × List Char) :=
  r.map fun (cs, rest) => (c :: cs, rest)

/-- The rest of a string with escapes on one line. -/
def basicString? : List Char → Option (List Char × List Char)
  | '\x22' :: rest => some ([], rest)
  | '\\' :: 'u' :: a :: b :: c :: d :: rest => do
    consTo (← charOfCode? (← hexNumber? [a, b, c, d])) (basicString? rest)
  | '\\' :: 'U' :: a :: b :: c :: d :: e :: f :: g :: h :: rest => do
    consTo (← charOfCode? (← hexNumber? [a, b, c, d, e, f, g, h])) (basicString? rest)
  | '\\' :: c :: rest => do consTo (← simpleEscape? c) (basicString? rest)
  | c :: rest => if isControl c then none else consTo c (basicString? rest)
  | [] => none

/-- The rest of a string without escapes on one line. -/
def literalString? : List Char → Option (List Char × List Char)
  | '\x27' :: rest => some ([], rest)
  | c :: rest => if isControl c then none else consTo c (literalString? rest)
  | [] => none

/-- Whether only blanks stand before the next line end. -/
def endsLine (cs : List Char) : Bool :=
  match skipBlanks cs with
  | '\n' :: _ | '\r' :: '\n' :: _ => true
  | _ => false

/-- The rest of a string with escapes on several lines. The flag says that blanks and line ends are
being dropped, after a backslash at the end of a line. Up to two quotation marks may stand right
before the closing ones. -/
def basicLines? : Bool → List Char → Option (List Char × List Char)
  | _, '\x22' :: '\x22' :: '\x22' :: '\x22' :: '\x22' :: rest => some (['\x22', '\x22'], rest)
  | _, '\x22' :: '\x22' :: '\x22' :: '\x22' :: rest => some (['\x22'], rest)
  | _, '\x22' :: '\x22' :: '\x22' :: rest => some ([], rest)
  | _, '\\' :: 'u' :: a :: b :: c :: d :: rest => do
    consTo (← charOfCode? (← hexNumber? [a, b, c, d])) (basicLines? false rest)
  | _, '\\' :: 'U' :: a :: b :: c :: d :: e :: f :: g :: h :: rest => do
    consTo (← charOfCode? (← hexNumber? [a, b, c, d, e, f, g, h])) (basicLines? false rest)
  | _, '\\' :: c :: rest =>
    if endsLine (c :: rest) then basicLines? true (c :: rest)
    else do consTo (← simpleEscape? c) (basicLines? false rest)
  | skipping, '\n' :: rest =>
    if skipping then basicLines? true rest else consTo '\n' (basicLines? false rest)
  | skipping, '\r' :: '\n' :: rest =>
    if skipping then basicLines? true rest else consTo '\n' (basicLines? false rest)
  | skipping, c :: rest =>
    if skipping && isBlank c then basicLines? true rest
    else if isControl c then none
    else consTo c (basicLines? false rest)
  | _, [] => none

/-- The rest of a string without escapes on several lines. -/
def literalLines? : List Char → Option (List Char × List Char)
  | '\x27' :: '\x27' :: '\x27' :: '\x27' :: '\x27' :: rest => some (['\x27', '\x27'], rest)
  | '\x27' :: '\x27' :: '\x27' :: '\x27' :: rest => some (['\x27'], rest)
  | '\x27' :: '\x27' :: '\x27' :: rest => some ([], rest)
  | '\n' :: rest => consTo '\n' (literalLines? rest)
  | '\r' :: '\n' :: rest => consTo '\n' (literalLines? rest)
  | c :: rest => if isControl c then none else consTo c (literalLines? rest)
  | [] => none

/-- Drops a line end right after the opening quotation marks. -/
def skipFirstLineEnd : List Char → List Char
  | '\n' :: rest => rest
  | '\r' :: '\n' :: rest => rest
  | rest => rest

/-- A string in any of the four forms. -/
def string? : List Char → Option (List Char × List Char)
  | '\x22' :: '\x22' :: '\x22' :: rest => basicLines? false (skipFirstLineEnd rest)
  | '\x27' :: '\x27' :: '\x27' :: rest => literalLines? (skipFirstLineEnd rest)
  | '\x22' :: rest => basicString? rest
  | '\x27' :: rest => literalString? rest
  | _ => none

/-! ## Keys -/

/-- Characters of a key without quotation marks. -/
def isBareKeyChar (c : Char) : Bool :=
  (c.isAlphanum && c.toNat < 128) || c == '-' || c == '_'

/-- One part of a key. -/
def simpleKey? : List Char → Option (String × List Char)
  | '\x22' :: rest => (basicString? rest).map fun (cs, rest) => (String.ofList cs, rest)
  | '\x27' :: rest => (literalString? rest).map fun (cs, rest) => (String.ofList cs, rest)
  | cs =>
    let name := cs.takeWhile isBareKeyChar
    if name.isEmpty then none else some (String.ofList name, cs.dropWhile isBareKeyChar)

/-- The parts of a key of at most `n` parts, with the blanks around them. -/
def key? : Nat → List Char → Option (List String × List Char)
  | 0, _ => none
  | n + 1, cs => do
    let (part, rest) ← simpleKey? (skipBlanks cs)
    match skipBlanks rest with
    | '.' :: rest => do
      let (parts, rest) ← key? n rest
      return (part :: parts, rest)
    | rest => return ([part], rest)

/-- The number of parts that no key reaches. -/
def keyLimit : Nat := 80

/-- The number of brackets around a value that no value reaches. -/
def depthLimit : Nat := 80

end EntityModel.Toml
