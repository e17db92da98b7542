import EntityModel.Number.Numeral

/-!
# The lexemes of JSON

`Lexeme.scan?` splits a text at its blanks and punctuation; `Lexeme.token?` judges what was found:
a word has to be one of the three literals, a numeral well formed, and the body of a quoted text
free of control characters and unknown escapes. A number beyond the finite ones, and a text with
half of a surrogate pair, are well formed but have no value, which is a `none` inside the token.
-/

namespace EntityModel.Json

/-- A piece of a text, not yet judged; the body of a quoted text still has its escapes. -/
inductive Lexeme where
  | mark (c : Char)
  | word (cs : List Char)
  | numeral (cs : List Char)
  | quoted (body : List Char)
  deriving DecidableEq, Repr

/-- A token of JSON. -/
inductive Token where
  | mark (c : Char)
  | null
  | bool (b : Bool)
  | number (n : Option Number)
  | text (s : Option String)
  deriving DecidableEq, Repr

namespace Lexeme

/-- What the scanner is reading, with the characters read so far in reverse. -/
inductive Scan where
  | between
  | word (read : List Char)
  | numeral (read : List Char)
  | quoted (read : List Char)
  | escaped (read : List Char)

/-- Blanks between lexemes. -/
def isBlank (c : Char) : Bool := c == ' ' || c == '\t' || c == '\n' || c == '\r'

/-- Brackets, colon and comma. -/
def isMark (c : Char) : Bool :=
  c == '[' || c == ']' || c == '\x7b' || c == '\x7d' || c == ':' || c == ','

/-- Letters of the literals. -/
def isWordChar (c : Char) : Bool := 'a' ≤ c && c ≤ 'z'

/-- What may stand in a numeral after its first character. -/
def isNumeralChar (c : Char) : Bool :=
  c.isDigit || c == '-' || c == '+' || c == '.' || c == 'e' || c == 'E'

/-- The scanner after a character that starts a lexeme or stands between two. -/
def start? (found : List Lexeme) (c : Char) : Option (Scan × List Lexeme) :=
  if isBlank c then some (.between, found)
  else if isMark c then some (.between, .mark c :: found)
  else if c = '\x22' then some (.quoted [], found)
  else if c.isDigit || c = '-' then some (.numeral [c], found)
  else if isWordChar c then some (.word [c], found)
  else none

/-- The scanner after one more character, with the lexemes found so far in reverse. -/
def step? (found : List Lexeme) (c : Char) : Scan → Option (Scan × List Lexeme)
  | .between => start? found c
  | .word read =>
    if isWordChar c then some (.word (c :: read), found) else start? (.word read.reverse :: found) c
  | .numeral read =>
    if isNumeralChar c then some (.numeral (c :: read), found)
    else start? (.numeral read.reverse :: found) c
  | .quoted read =>
    if c = '\x22' then some (.between, .quoted read.reverse :: found)
    else if c = '\\' then some (.escaped (c :: read), found)
    else some (.quoted (c :: read), found)
  | .escaped read => some (.quoted (c :: read), found)

/-- The lexemes found at the end of a text; a quoted text must be closed. -/
def finish? (found : List Lexeme) : Scan → Option (List Lexeme)
  | .between => some found.reverse
  | .word read => some (.word read.reverse :: found).reverse
  | .numeral read => some (.numeral read.reverse :: found).reverse
  | .quoted _ | .escaped _ => none

/-- The lexemes of the rest of a text. -/
def scanFrom? : Scan → List Lexeme → List Char → Option (List Lexeme)
  | s, found, [] => finish? found s
  | s, found, c :: rest => do
    let (s, found) ← step? found c s
    scanFrom? s found rest

/-- The lexemes of a text. -/
def scan? (cs : List Char) : Option (List Lexeme) := scanFrom? .between [] cs

/-- The value of a hexadecimal digit. -/
def hexValue? (c : Char) : Option Nat :=
  if c.isDigit then some (c.toNat - 48)
  else if 'a' ≤ c && c ≤ 'f' then some (c.toNat - 87)
  else if 'A' ≤ c && c ≤ 'F' then some (c.toNat - 55)
  else none

/-- The number of four hexadecimal digits. -/
def codeUnit? (a b c d : Char) : Option Nat := do
  return 4096 * (← hexValue? a) + 256 * (← hexValue? b) + 16 * (← hexValue? c) + (← hexValue? d)

/-- The character after a backslash stands for this one. -/
def simpleEscape? : Char → Option Char
  | '\x22' => some '\x22'
  | '\\' => some '\\'
  | '/' => some '/'
  | 'b' => some '\x08'
  | 'f' => some '\x0c'
  | 'n' => some '\n'
  | 'r' => some '\r'
  | 't' => some '\t'
  | _ => none

/-- The units of the body of a quoted text: characters, and numbers from `\u` escapes. -/
def units? : List Char → Option (List (Char ⊕ Nat))
  | [] => some []
  | '\\' :: 'u' :: a :: b :: c :: d :: rest => do
    return .inr (← codeUnit? a b c d) :: (← units? rest)
  | '\\' :: c :: rest => do return .inl (← simpleEscape? c) :: (← units? rest)
  | c :: rest => if c.toNat < 32 || c = '\\' then none else do return .inl c :: (← units? rest)

/-- Whether a number is the first half of a surrogate pair. -/
def isHigh (n : Nat) : Bool := 0xD800 ≤ n && n < 0xDC00

/-- Whether a number is the second half of a surrogate pair. -/
def isLow (n : Nat) : Bool := 0xDC00 ≤ n && n < 0xE000

/-- The characters of units: two halves of a pair are one character, and a lone half is none. -/
def chars? : List (Char ⊕ Nat) → Option (List Char)
  | [] => some []
  | .inl c :: rest => (chars? rest).map (c :: ·)
  | .inr m :: .inr n :: rest =>
    if isHigh m then
      if isLow n then
        (chars? rest).map (Char.ofNat (0x10000 + 0x400 * (m - 0xD800) + (n - 0xDC00)) :: ·)
      else none
    else if isLow m then none
    else (chars? (.inr n :: rest)).map (Char.ofNat m :: ·)
  | .inr m :: rest =>
    if isHigh m || isLow m then none else (chars? rest).map (Char.ofNat m :: ·)

/-- The token of a lexeme. -/
def token? : Lexeme → Option Token
  | .mark c => some (.mark c)
  | .word cs =>
    if cs = ['n', 'u', 'l', 'l'] then some .null
    else if cs = ['t', 'r', 'u', 'e'] then some (.bool true)
    else if cs = ['f', 'a', 'l', 's', 'e'] then some (.bool false)
    else none
  | .numeral cs => (Numeral.ofChars? cs).map fun n => .number n.number?
  | .quoted body => (units? body).map fun us => .text ((chars? us).map String.ofList)

end Lexeme

/-- The tokens of a text. -/
def tokens? (cs : List Char) : Option (List Token) := do (← Lexeme.scan? cs).mapM Lexeme.token?

end EntityModel.Json
