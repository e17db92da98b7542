/-!
# The segments of a template

A template is text with two kinds of tags: `\x7b\x7b … \x7d\x7d` puts out a value and `\x7b% …
%\x7d` controls what is rendered. A line that holds nothing but control tags leaves no trace: the
blanks in front of such a tag are dropped if it is the first on its line, and so is the line end
right behind one. One line end at the end of a template is dropped, too.
-/

namespace EntityModel.Template

/-- A segment of a template; tags are given by what stands inside them. -/
inductive Segment where
  | text (cs : List Char)
  | output (inside : List Char)
  | control (inside : List Char)
  deriving DecidableEq, Repr

namespace Segment

/-- Whether a character is white space. -/
def isSpace (c : Char) : Bool :=
  let n := c.toNat
  (9 ≤ n && n ≤ 13) || n == 0x20 || n == 0x85 || n == 0xA0 || n == 0x1680 ||
    (0x2000 ≤ n && n ≤ 0x200A) || n == 0x2028 || n == 0x2029 || n == 0x202F || n == 0x205F ||
    n == 0x3000

/-- Whether a character ends a line. -/
def isLineEnd (c : Char) : Bool := c == '\n' || c == '\r'

/-- White space within a line. -/
def isBlank (c : Char) : Bool := isSpace c && !isLineEnd c

/-- Whether nothing but blanks stands between the start of a line and here; what stands in front is
given in reverse. -/
def startsLine (before : List Char) : Bool :=
  match before.dropWhile isBlank with
  | [] => true
  | c :: _ => isLineEnd c

/-- Drops one line end at the end of a template. -/
def dropFinalLineEnd (cs : List Char) : List Char :=
  let drop (c : Char) : List Char → List Char
    | [] => []
    | d :: rest => if c = d then rest else d :: rest
  (drop '\r' (drop '\n' cs.reverse)).reverse

/-- What the scanner is in: text, or a tag and, in it, possibly a literal. -/
inductive Mode where
  | text
  | tag (controls : Bool)
  | literal (controls : Bool) (mark : Char)
  | escaped (controls : Bool) (mark : Char)

/-- The segment of text that was read in reverse, if there is any. -/
def flush (read : List Char) (found : List Segment) : List Segment :=
  if read.isEmpty then found else .text read.reverse :: found

/-- Whether the next character is dropped: a line end right behind a control tag. -/
inductive Skip where
  | nothing
  | lineEnd
  | newline

/-- The segments of the rest of a template: `before` is all that stands in front of it, `read` what
was read of the segment at hand, and `found` the segments before, all in reverse. A tag must be
closed. -/
def scanFrom? (skip : Skip) (mode : Mode) (before read : List Char) (found : List Segment) :
    List Char → Option (List Segment)
  | [] =>
    match mode with
    | .text => some (flush read found).reverse
    | _ => none
  | c :: rest =>
    match mode, skip with
    | .text, .lineEnd =>
      if c = '\n' then scanFrom? .nothing .text (c :: before) read found rest
      else if c = '\r' then scanFrom? .newline .text (c :: before) read found rest
      else scanFrom? .nothing .text (c :: before) (c :: read) found rest
    | .text, .newline =>
      if c = '\n' then scanFrom? .nothing .text (c :: before) read found rest
      else scanFrom? .nothing .text (c :: before) (c :: read) found rest
    | .text, .nothing =>
      match c, read with
      | '\x7b', '\x7b' :: earlier =>
        scanFrom? .nothing (.tag false) (c :: before) [] (flush earlier found) rest
      | '%', '\x7b' :: earlier =>
        let earlier := if startsLine (before.drop 1) then earlier.dropWhile isBlank else earlier
        scanFrom? .nothing (.tag true) (c :: before) [] (flush earlier found) rest
      | _, _ => scanFrom? .nothing .text (c :: before) (c :: read) found rest
    | .tag controls, _ =>
      match c, read with
      | '\x7d', '\x7d' :: earlier =>
        if controls then scanFrom? skip mode (c :: before) (c :: read) found rest
        else scanFrom? .nothing .text (c :: before) [] (.output earlier.reverse :: found) rest
      | '\x7d', '%' :: earlier =>
        if controls then
          scanFrom? .lineEnd .text (c :: before) [] (.control earlier.reverse :: found) rest
        else scanFrom? skip mode (c :: before) (c :: read) found rest
      | _, _ =>
        if c = '\x22' ∨ c = '\x27' then
          scanFrom? skip (.literal controls c) (c :: before) (c :: read) found rest
        else scanFrom? skip mode (c :: before) (c :: read) found rest
    | .literal controls mark, _ =>
      let next :=
        if c = mark then Mode.tag controls
        else if c = '\\' then .escaped controls mark
        else mode
      scanFrom? skip next (c :: before) (c :: read) found rest
    | .escaped controls mark, _ =>
      scanFrom? skip (.literal controls mark) (c :: before) (c :: read) found rest

/-- The segments of a template. -/
def scan? (cs : List Char) : Option (List Segment) :=
  scanFrom? .nothing .text [] [] [] (dropFinalLineEnd cs)

end Segment

end EntityModel.Template
